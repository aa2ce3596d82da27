import Subspace.Lib.BTree
import Subspace.Lib.Except

/-!
# The messenger pallet: data

The storage of `pallet-messenger` on one chain (`lib.rs`), the messages it
exchanges with other chains (`sp_messenger::messages`) and the parts of the
runtime it calls out to. Channel ids and nonces are `U256` and kept as `ℕ`,
with the `checked_add` of the source made explicit (`checkedAddOne`); the
`u32` fields are `UInt32` and the per-channel message count a `ℕ` checked
against `2 ^ 32`. Balances are `ℕ`: the fees on hold are bounded by the
total issuance, so the `checked_add` on them never fails, while every
`checked_sub` keeps its error.

Left out: events, weights, and the state of the currency and of the other
pallets. What the pallet asks of them (an endpoint's handler, a hold or burn
of the currency, noting a transfer with the transporter) is an `Env`, given
anew to each transaction.
-/

namespace Subspace.Messenger

/-- `ChainId`. -/
inductive ChainId where
  | consensus
  | domain (domainId : ℕ)
deriving DecidableEq, Repr

/-- `ChainId::is_consensus_chain`. -/
def ChainId.isConsensusChain : ChainId → Bool
  | .consensus => true
  | .domain _ => false

/-- `ChainId::maybe_domain_chain`. -/
def ChainId.maybeDomainChain : ChainId → Option ℕ
  | .consensus => none
  | .domain domainId => some domainId

/-- The largest `U256`, the bound of channel ids and nonces. -/
def u256Max : ℕ := 2 ^ 256 - 1

/-- `checked_add(One::one())` on a `U256`. -/
def checkedAddOne (n : ℕ) : Option ℕ :=
  if n < u256Max then some (n + 1) else none

@[simp] theorem checkedAddOne_eq_some {n m : ℕ} : checkedAddOne n = some m ↔ n < u256Max ∧ m = n + 1 := by
  unfold checkedAddOne
  split <;> simp_all [eq_comm]

/-- `MAX_FUTURE_ALLOWED_NONCES`. -/
def maxFutureAllowedNonces : ℕ := 256

/-- `ChannelState`. -/
inductive ChannelState where
  | initiated
  | «open»
  | closed
deriving DecidableEq, Repr

/-- `Endpoint`. -/
inductive Endpoint where
  | id (endpointId : ℕ)
deriving DecidableEq, Repr

/-- `EndpointRequest`: the payload is the bytes of the request. -/
structure EndpointRequest where
  srcEndpoint : Endpoint
  dstEndpoint : Endpoint
  payload : List ℕ
deriving DecidableEq, Repr

/-- `CollectedFee`. -/
structure CollectedFee where
  srcChainFee : ℕ
  dstChainFee : ℕ
deriving DecidableEq, Repr

/-- `EndpointRequestWithCollectedFee`. -/
structure EndpointRequestWithCollectedFee where
  req : EndpointRequest
  collectedFee : CollectedFee
deriving DecidableEq, Repr

/-- `ChannelOpenParamsV1`. -/
structure ChannelOpenParamsV1 where
  maxOutgoingMessages : UInt32
deriving DecidableEq, Repr

/-- `ProtocolMessageRequest<ChannelOpenParamsV1>`. -/
inductive ProtocolMessageRequest where
  | channelOpen (params : ChannelOpenParamsV1)
  | channelClose
deriving DecidableEq, Repr

/-- `RequestResponse`. -/
inductive RequestResponse (Request Response : Type) where
  | request (req : Request)
  | response (resp : Response)
deriving DecidableEq, Repr

/-- The `pallet-messenger` `Error` variants the modelled functions return. -/
inductive Error where
  | invalidChain
  | missingChannel
  | invalidChannelState
  | noOpenChannel
  | noMessageHandler
  | outboxFull
  | invalidMessagePayload
  | invalidMessageDestination
  | missingMessage
  | weightTagNotMatch
  | balanceUnderflow
  | invalidAllowedChain
  | operationNotAllowed
  | chainNotAllowed
  | insufficientBalance
  | balanceHold
  | channelOwner
  | invalidChannelReserveFee
  | invalidMaxOutgoingMessages
  | messageCountOverflow
  | messageCountUnderflow
  | failedToNoteTransferIn
  | failedToNoteTransferOut
deriving DecidableEq, Repr

/-- `DispatchError`: an error of this pallet, an arithmetic overflow, or an
error another pallet returned (an endpoint's handler, the currency). -/
inductive DispatchError where
  | module (e : Error)
  | arithmeticOverflow
  | other (code : ℕ)
deriving DecidableEq, Repr

/-- `PayloadV1`; `VersionedPayload` has this one version and is left out.
A protocol response is a `ProtocolMessageResponse`, an endpoint response an
`EndpointResponse`. -/
inductive PayloadV1 where
  | protocol (rr : RequestResponse ProtocolMessageRequest (Except DispatchError Unit))
  | endpoint (rr : RequestResponse EndpointRequestWithCollectedFee (Except DispatchError (List ℕ)))
deriving DecidableEq

/-- `Message`. -/
structure Message where
  srcChainId : ChainId
  dstChainId : ChainId
  channelId : ℕ
  nonce : ℕ
  payload : PayloadV1
  lastDeliveredMessageResponseNonce : Option ℕ
deriving DecidableEq

/-- `MessageWeightTag`. -/
inductive MessageWeightTag where
  | protocolChannelOpen
  | protocolChannelClose
  | endpointRequest (endpoint : Endpoint)
  | endpointResponse (endpoint : Endpoint)
  | none
deriving DecidableEq, Repr

namespace MessageWeightTag

/-- `MessageWeightTag::outbox`: the tag of an outbox message, by its payload. -/
def outbox : PayloadV1 → MessageWeightTag
  | .protocol (.request (.channelOpen _)) => protocolChannelOpen
  | .protocol (.request .channelClose) => protocolChannelClose
  | .endpoint (.request req) => endpointRequest req.req.dstEndpoint
  | _ => none

/-- `MessageWeightTag::inbox_response`: the tag of an inbox response, by the
tag of its request and the response payload. -/
def inboxResponse : MessageWeightTag → PayloadV1 → MessageWeightTag
  | protocolChannelOpen, .protocol (.response (.ok _)) => protocolChannelOpen
  | endpointRequest endpoint, .endpoint (.response _) => endpointResponse endpoint
  | _, _ => none

end MessageWeightTag

/-- `Channel<Balance, AccountId>`. -/
structure Channel (A : Type) where
  channelId : ℕ
  state : ChannelState
  nextInboxNonce : ℕ
  nextOutboxNonce : ℕ
  latestResponseReceivedMessageNonce : Option ℕ
  maxOutgoingMessages : UInt32
  maybeOwner : Option A
  channelReserveFee : ℕ
deriving DecidableEq

/-- `CloseChannelBy`. -/
inductive CloseChannelBy (A : Type) where
  | owner (owner : A)
  | sudo
deriving DecidableEq

/-- `ChainAllowlistUpdate`. -/
inductive ChainAllowlistUpdate where
  | add (chainId : ChainId)
  | remove (chainId : ChainId)
deriving DecidableEq

/-- `ChainAllowlistUpdate::chain_id`. -/
def ChainAllowlistUpdate.chainId : ChainAllowlistUpdate → ChainId
  | .add chainId => chainId
  | .remove chainId => chainId

/-- `DomainAllowlistUpdates`. -/
structure DomainAllowlistUpdates where
  allowChains : Finset ChainId
  removeChains : Finset ChainId

/-- `CrossDomainMessage` as the relayer submits it: the key of the message
on its source chain, the weight tag, and `proof`, the message that the
storage proofs show stored at that key (`none` where they do not verify). -/
structure CrossDomainMessage where
  srcChainId : ChainId
  dstChainId : ChainId
  channelId : ℕ
  nonce : ℕ
  proof : Option Message
  weightTag : MessageWeightTag
deriving DecidableEq

/-- A cross-domain message whose proven message is the one stored at its key:
the source chain keeps every message under its own chain, channel and nonce
(`outboxMessages`, `inboxResponseMessages` of `Bookkept`), and a storage
proof shows the value stored at the key it is checked against. -/
def CrossDomainMessage.isSound (xdm : CrossDomainMessage) : Bool :=
  xdm.proof.all fun msg =>
    msg.srcChainId = xdm.srcChainId && msg.channelId = xdm.channelId && msg.nonce = xdm.nonce

/-- `ValidatedRelayMessage`. -/
structure ValidatedRelayMessage where
  message : Message
  shouldInitChannel : Bool
  nextNonce : ℕ

/-- `InvalidTransaction`, with the custom codes of `verification_errors`. -/
inductive InvalidTransaction where
  | call
  | stale
  | future
  | badProof
  | custom (code : ℕ)
deriving DecidableEq, Repr

/-- `verification_errors::INVALID_NONCE`. -/
def invalidNonce : ℕ := 201

/-- `verification_errors::XDM_NONCE_OVERFLOW`. -/
def xdmNonceOverflow : ℕ := 202

/-- `verification_errors::INVALID_CHANNEL`. -/
def invalidChannel : ℕ := 203

/-- `verification_errors::IN_FUTURE_NONCE`. -/
def inFutureNonce : ℕ := 204

/-- `verification_errors::NEXT_NONCE_UPDATE`. -/
def nextNonceUpdate : ℕ := 205

/-- An `EndpointHandler`: `message` answers a request given the result of
the pallet's pre-checks, `message_response` takes the answer to a request
this chain sent. -/
structure EndpointHandler where
  message : ChainId → ℕ × ℕ → EndpointRequest → Except DispatchError Unit →
    Except DispatchError (List ℕ)
  messageWeight : ℕ
  messageResponse : ChainId → ℕ × ℕ → EndpointRequest → Except DispatchError (List ℕ) →
    Except DispatchError Unit
  messageResponseWeight : ℕ

/-- The runtime constants of the pallet. -/
structure Config where
  selfChainId : ChainId
  maxOutgoingMessages : UInt32
  channelReserveFee : ℕ
  feeMultiplier : ℕ

/-- What one transaction finds outside the pallet: `get_endpoint_handler`,
`AdjustedWeightToFee`, the currency, `NoteChainTransfer` and
`DomainRegistration`. Of the currency: `reducible_balance`, whether `hold`
succeeds, `burn_from`, and the storage layer of `do_close_channel` that
releases an owner's reserve (burning the protocol's portion of a channel that
never opened). -/
structure Env (A : Type) where
  getEndpointHandler : Endpoint → Option EndpointHandler
  adjustedWeightToFee : ℕ → ℕ
  reducibleBalance : A → ℕ
  hold : A → ℕ → Bool
  burnFrom : A → ℕ → Except DispatchError Unit
  releaseChannelReserve : A → ChannelState → ℕ → Except DispatchError Unit
  noteTransferIn : ℕ → ChainId → Bool
  noteTransferOut : ℕ → ChainId → Bool
  isDomainRegistered : ℕ → Bool

/-- The storage of the pallet. Maps of `(ChainId, MessageId)` and of
`MessageKey` are both keyed by `(chain, channel, nonce)`; the two fee maps
are `BTreeMap`s, so that the fees on hold can be summed over their keys.
`xdmRewards` is what `OnXDMRewards::on_xdm_rewards` has been given. -/
structure State (A : Type) where
  nextChannelId : ChainId → ℕ
  channels : ChainId × ℕ → Option (Channel A)
  inbox : Option Message
  inboxFee : BTreeMap (ChainId × ℕ × ℕ) ℕ
  outboxFee : BTreeMap (ChainId × ℕ × ℕ) ℕ
  inboxResponses : ChainId × ℕ × ℕ → Option Message
  outbox : ChainId × ℕ × ℕ → Option Message
  outboxMessageCount : ChainId × ℕ → ℕ
  outboxResponses : Option Message
  outboxMessageWeightTags : ChainId × ℕ × ℕ → Option MessageWeightTag
  inboxResponseMessageWeightTags : ChainId × ℕ × ℕ → Option MessageWeightTag
  chainAllowlist : Finset ChainId
  updatedChannels : Finset (ChainId × ℕ)
  inboxFeesOnHold : ℕ
  outboxFeesOnHold : ℕ
  xdmRewards : ℕ

/-- The storage at genesis: no channels and no messages, the allow list of
the chain spec. -/
def State.genesis {A : Type} (chainAllowlist : Finset ChainId) : State A where
  nextChannelId := fun _ => 0
  channels := fun _ => none
  inbox := none
  inboxFee := .empty 0
  outboxFee := .empty 0
  inboxResponses := fun _ => none
  outbox := fun _ => none
  outboxMessageCount := fun _ => 0
  outboxResponses := none
  outboxMessageWeightTags := fun _ => none
  inboxResponseMessageWeightTags := fun _ => none
  chainAllowlist := chainAllowlist
  updatedChannels := ∅
  inboxFeesOnHold := 0
  outboxFeesOnHold := 0
  xdmRewards := 0

end Subspace.Messenger
