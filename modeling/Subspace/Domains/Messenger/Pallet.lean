import Subspace.Domains.Messenger.Messages

/-!
# The messenger pallet: calls and transactions

The calls of `lib.rs`, `Sender::send_message`, the checks of a relayed
message (`validate_relay_message`, `pre_dispatch_relay_message` and their
response counterparts, `do_verify_xdm`) and the transaction extension that
runs them (`MessengerExtension` of `extensions.rs`).

A relayed message goes through three stages. `validate` reads the channel's
next nonce and rejects a stale message; `prepare` rejects a message ahead of
that nonce, then advances the nonce and stores the message for the call; the
dispatch processes it. A failure in the first two rejects the transaction,
which leaves no trace; what `prepare` wrote stays even where the dispatch then
fails, since only the dispatch is transactional.

`step` applies one transaction: a call of this pallet, a `send_message` from
another pallet's call (which fails or succeeds as a whole), or the start of a
block. Calls from an origin they do not accept fail before changing anything
and are not modelled; the pool's tags and priorities are left out.
-/

namespace Subspace.Messenger

variable {A : Type} [DecidableEq A]

/-- `initiate_channel`, signed by `owner`: reserve the fee, initiate a
channel to `dstChainId` and ask the other chain to open it. -/
def initiateChannel (cfg : Config) (env : Env A) (s : State A) (owner : A) (dstChainId : ChainId) :
    Except DispatchError (State A) := do
  let amount := cfg.channelReserveFee
  ensure (amount ≤ env.reducibleBalance owner) (.module .insufficientBalance)
  ensure (env.hold owner amount = true) (.module .balanceHold)
  let channelOpenParams : ChannelOpenParamsV1 := ⟨cfg.maxOutgoingMessages⟩
  let (channelId, s) ← doInitChannel cfg s dstChainId channelOpenParams (some owner) true amount
  let payload := PayloadV1.protocol (.request (.channelOpen channelOpenParams))
  let (_, s) ← newOutboxMessage s cfg.selfChainId dstChainId channelId payload
  pure s

/-- `close_channel`, by the channel's owner or by root: close the channel and
tell the other chain. -/
def closeChannel (cfg : Config) (env : Env A) (s : State A) (closeChannelBy : CloseChannelBy A)
    (chainId : ChainId) (channelId : ℕ) : Except DispatchError (State A) := do
  let s ← doCloseChannel env s chainId channelId closeChannelBy
  let (_, s) ← newOutboxMessage s cfg.selfChainId chainId channelId (.protocol (.request .channelClose))
  pure s

/-- `relay_message`: process the message `prepare` stored. -/
def relayMessage (cfg : Config) (env : Env A) (s : State A) (msg : CrossDomainMessage) :
    Except DispatchError (State A) := do
  let inboxMsg ← s.inbox.okOr (.module .missingMessage)
  processInboxMessages cfg env { s with inbox := none } inboxMsg msg.weightTag

/-- `relay_message_response`: process the response `prepare` stored. -/
def relayMessageResponse (env : Env A) (s : State A) (msg : CrossDomainMessage) :
    Except DispatchError (State A) := do
  let outboxRespMsg ← s.outboxResponses.okOr (.module .missingMessage)
  let (s, _) ← processOutboxMessageResponses env { s with outboxResponses := none } outboxRespMsg
    msg.weightTag
  pure s

/-- A domain added to the allow list must be registered. -/
def ensureDomainRegistered (env : Env A) : ChainAllowlistUpdate → Except DispatchError Unit
  | .add (.domain domainId) => ensure (env.isDomainRegistered domainId = true) (.module .invalidChain)
  | _ => pure ()

/-- `update_consensus_chain_allowlist`, by root on the consensus chain. -/
def updateConsensusChainAllowlist (cfg : Config) (env : Env A) (s : State A)
    (update : ChainAllowlistUpdate) : Except DispatchError (State A) := do
  ensure (cfg.selfChainId.isConsensusChain = true) (.module .operationNotAllowed)
  ensure (update.chainId ≠ cfg.selfChainId) (.module .invalidAllowedChain)
  ensureDomainRegistered env update
  pure { s with
    chainAllowlist := match update with
      | .add chainId => insert chainId s.chainAllowlist
      | .remove chainId => s.chainAllowlist.erase chainId }

/-- `update_domain_allowlist`, the inherent of a domain: remove the chains to
remove, then add the chains to allow. -/
def updateDomainAllowlist (cfg : Config) (s : State A) (updates : DomainAllowlistUpdates) :
    Except DispatchError (State A) := do
  ensure (cfg.selfChainId.isConsensusChain = false) (.module .operationNotAllowed)
  pure { s with chainAllowlist := (s.chainAllowlist \ updates.removeChains) ∪ updates.allowChains }

/-- `on_initialize`: a block starts with no updated channels. -/
def onInitialize (s : State A) : State A := { s with updatedChannels := ∅ }

/-- `Sender::send_message`: send an endpoint request through the last open
channel to `dstChainId` with room, paying its fees; the message's id. -/
def sendMessage (cfg : Config) (env : Env A) (s : State A) (sender : A) (dstChainId : ChainId)
    (req : EndpointRequest) : Except DispatchError ((ℕ × ℕ) × State A) := do
  ensure (dstChainId ∈ s.chainAllowlist) (.module .chainNotAllowed)
  let channelId ← (getOpenChannelForChain s dstChainId).okOr (.module .noOpenChannel)
  let collectedFee ← collectFeesForMessageV1 cfg env sender req.srcEndpoint
  let (nonce, s) ← newOutboxMessage s cfg.selfChainId dstChainId channelId
    (.endpoint (.request ⟨req, collectedFee⟩))
  let messageId := (channelId, nonce)
  let s ← storeOutboxFee env s dstChainId messageId collectedFee.srcChainFee collectedFee.dstChainFee
  pure (messageId, s)

/-- `do_verify_xdm`: the channel is one the source chain has, or its next;
the nonce is not behind `nextNonce`; the proofs verify. -/
def doVerifyXdm (s : State A) (nextNonce : ℕ) (xdm : CrossDomainMessage) :
    Except InvalidTransaction Message := do
  ensure (xdm.channelId ≤ s.nextChannelId xdm.srcChainId) (.custom invalidChannel)
  ensure (nextNonce ≤ xdm.nonce) (.custom invalidNonce)
  xdm.proof.okOr .badProof

/-- Whether a request may come through the channel as it is here: a channel
open only where there is no channel yet, a close through a channel not
closed, an endpoint request through a channel past `Initiated`. -/
def isValidCall (maybeChannel : Option (Channel A)) (payload : PayloadV1) : Bool :=
  match payload with
  | .protocol (.request (.channelOpen _)) => maybeChannel.isNone
  | .protocol (.request .channelClose) =>
    match maybeChannel with
    | some channel => decide (channel.state ≠ .closed)
    | none => false
  -- a channel the other chain closed meanwhile still takes the request, to answer it with an error
  | .endpoint (.request _) =>
    match maybeChannel with
    | some channel => decide (channel.state ≠ .initiated)
    | none => false
  | _ => false

/-- `validate_relay_message`. With no channel yet the message must open one,
at nonce `0`. -/
def validateRelayMessage (s : State A) (xdm : CrossDomainMessage) :
    Except InvalidTransaction ValidatedRelayMessage := do
  let maybeChannel := s.channels (xdm.srcChainId, xdm.channelId)
  let nextNonce := match maybeChannel with
    | none => 0
    | some channel => channel.nextInboxNonce
  let msg ← doVerifyXdm s nextNonce xdm
  ensure (isValidCall maybeChannel msg.payload = true) .call
  ensure (nextNonce ≤ msg.nonce) .stale
  pure { message := msg, shouldInitChannel := maybeChannel.isNone, nextNonce }

/-- `pre_dispatch_relay_message`: initiate the channel a channel open asks
for, advance the next inbox nonce past the message, and store the message for
the call. -/
def preDispatchRelayMessage (cfg : Config) (s : State A) (msg : Message) (shouldInitChannel : Bool) :
    Except InvalidTransaction (State A) := do
  let s ← (if shouldInitChannel then
      match msg.payload with
      | .protocol (.request (.channelOpen params)) =>
        -- opened from the other chain: no owner here, and no check of the allow list
        match doInitChannel cfg s msg.srcChainId params none false 0 with
        | .ok (_, s) => pure s
        | .error _ => throw .call
      | _ => throw .call
    else pure s : Except InvalidTransaction (State A))
  let channel ← (s.channels (msg.srcChainId, msg.channelId)).okOr (.custom nextNonceUpdate)
  let nextInboxNonce ← (checkedAddOne msg.nonce).okOr (.custom nextNonceUpdate)
  pure { s with
    channels := Function.update s.channels (msg.srcChainId, msg.channelId) (some { channel with nextInboxNonce })
    inbox := some msg }

/-- `validate_relay_message_response`: the response must be to the next
request whose response has not arrived. -/
def validateRelayMessageResponse (s : State A) (xdm : CrossDomainMessage) :
    Except InvalidTransaction ValidatedRelayMessage := do
  let channel ← (s.channels (xdm.srcChainId, xdm.channelId)).okOr .call
  let nextNonce ← (match channel.latestResponseReceivedMessageNonce with
    | none => pure 0
    | some lastNonce => (checkedAddOne lastNonce).okOr (.custom xdmNonceOverflow) : Except InvalidTransaction ℕ)
  let msg ← doVerifyXdm s nextNonce xdm
  ensure (nextNonce ≤ msg.nonce) .stale
  pure { message := msg, shouldInitChannel := false, nextNonce }

/-- `pre_dispatch_relay_message_response`: note the response as the latest
received and store it for the call. -/
def preDispatchRelayMessageResponse (s : State A) (msg : Message) : Except InvalidTransaction (State A) := do
  let channel ← (s.channels (msg.srcChainId, msg.channelId)).okOr (.custom nextNonceUpdate)
  pure { s with
    channels := Function.update s.channels (msg.srcChainId, msg.channelId)
      (some { channel with latestResponseReceivedMessageNonce := some msg.nonce })
    outboxResponses := some msg }

/-- The calls of the pallet, each with the origin it accepts. -/
inductive Call (A : Type) where
  | initiateChannel (owner : A) (dstChainId : ChainId)
  | closeChannel (closeChannelBy : CloseChannelBy A) (chainId : ChainId) (channelId : ℕ)
  | relayMessage (msg : CrossDomainMessage)
  | relayMessageResponse (msg : CrossDomainMessage)
  | updateConsensusChainAllowlist (update : ChainAllowlistUpdate)
  | updateDomainAllowlist (updates : DomainAllowlistUpdates)

/-- Dispatching a call. -/
def dispatch (cfg : Config) (env : Env A) (s : State A) : Call A → Except DispatchError (State A)
  | .initiateChannel owner dstChainId => initiateChannel cfg env s owner dstChainId
  | .closeChannel closeChannelBy chainId channelId => closeChannel cfg env s closeChannelBy chainId channelId
  | .relayMessage msg => relayMessage cfg env s msg
  | .relayMessageResponse msg => relayMessageResponse env s msg
  | .updateConsensusChainAllowlist update => updateConsensusChainAllowlist cfg env s update
  | .updateDomainAllowlist updates => updateDomainAllowlist cfg s updates

/-- `check_future_nonce_and_add_requires`: a message ahead of the next nonce
is accepted at most `MAX_FUTURE_ALLOWED_NONCES` ahead, and waits for the one
before it; the tag it waits for. -/
def checkFutureNonceAndAddRequires (validated : ValidatedRelayMessage) :
    Except InvalidTransaction (Option (ChainId × ℕ × ℕ)) :=
  let msg := validated.message
  let nextNonce := validated.nextNonce
  if nextNonce < msg.nonce then
    let maxFutureNonce := min (nextNonce + maxFutureAllowedNonces) u256Max
    if maxFutureNonce < msg.nonce then .error (.custom inFutureNonce)
    else pure (some (msg.dstChainId, msg.channelId, msg.nonce - 1))
  else pure none

/-- `MessengerExtension::do_validate`. -/
def doValidate (s : State A) : Call A → Except InvalidTransaction ValidatedRelayMessage
  | .relayMessage xdm => do
    let validated ← validateRelayMessage s xdm
    let _ ← checkFutureNonceAndAddRequires validated
    pure validated
  | .relayMessageResponse xdm => do
    let validated ← validateRelayMessageResponse s xdm
    let _ ← checkFutureNonceAndAddRequires validated
    pure validated
  | _ => throw .call

/-- `MessengerExtension::do_prepare`: a message ahead of its nonce waits. -/
def doPrepare (cfg : Config) (s : State A) (call : Call A) (val : ValidatedRelayMessage) :
    Except InvalidTransaction (State A) := do
  ensure (val.message.nonce ≤ val.nextNonce) .future
  match call with
  | .relayMessage _ => preDispatchRelayMessage cfg s val.message val.shouldInitChannel
  | .relayMessageResponse _ => preDispatchRelayMessageResponse s val.message
  | _ => throw .call

/-- `MessengerExtension::validate` then `prepare`, against the state the
transaction is applied to: the relay calls are checked and prepared, the
others pass. -/
def validateAndPrepare (cfg : Config) (s : State A) (call : Call A) : Except InvalidTransaction (State A) :=
  match call with
  | .relayMessage _ | .relayMessageResponse _ => do
    let val ← doValidate s call
    doPrepare cfg s call val
  | _ => pure s

/-- An extrinsic of this pallet: the extension's checks, then the dispatch,
whose changes are kept only where it succeeds; with the dispatch's result. -/
def applyExtrinsic (cfg : Config) (env : Env A) (s : State A) (call : Call A) :
    Except InvalidTransaction (State A × Except DispatchError Unit) := do
  let s ← validateAndPrepare cfg s call
  pure (match dispatch cfg env s call with
    | .ok s' => (s', .ok ())
    | .error e => (s, .error e))

/-- What happens to the pallet's storage in a block. -/
inductive Transaction (A : Type) where
  | call (call : Call A)
  /-- Another pallet's call that sends a message, and fails as a whole where
  sending fails. -/
  | sendMessage (sender : A) (dstChainId : ChainId) (req : EndpointRequest)
  | onInitialize

/-- A relayed message proves the message stored at its key. -/
def Transaction.isSound : Transaction A → Bool
  | .call (.relayMessage xdm) => xdm.isSound
  | .call (.relayMessageResponse xdm) => xdm.isSound
  | _ => true

/-- The storage after a transaction; a rejected transaction leaves it as it was. -/
def step (cfg : Config) (env : Env A) (s : State A) : Transaction A → State A
  | .call call =>
    match applyExtrinsic cfg env s call with
    | .ok (s', _) => s'
    | .error _ => s
  | .sendMessage sender dstChainId req =>
    match sendMessage cfg env s sender dstChainId req with
    | .ok (_, s') => s'
    | .error _ => s
  | .onInitialize => onInitialize s

/-- The storage after a run of transactions, each with what it finds outside
the pallet. -/
def run (cfg : Config) (s : State A) (txs : List (Env A × Transaction A)) : State A :=
  txs.foldl (fun s tx => step cfg tx.1 s tx.2) s

/-- The states a chain reaches from genesis by sound transactions. -/
inductive Reachable (cfg : Config) : State A → Prop
  | genesis (chainAllowlist : Finset ChainId) : Reachable cfg (State.genesis chainAllowlist)
  | step {s : State A} (env : Env A) (tx : Transaction A) (sound : tx.isSound = true) :
      Reachable cfg s → Reachable cfg (step cfg env s tx)


/-! ## A chain to run -/

/-- The consensus chain, with room for one outgoing message a channel and a
channel reserve of `1`. -/
def relayConfig : Config := ⟨.consensus, 1, 1, 1⟩

/-- A runtime whose one handler answers every request, at no fee, and whose
currency notes the transfers of fees where `notesTransfers` holds. -/
def relayEnv (notesTransfers : Bool) : Env ℕ where
  getEndpointHandler := fun _ => some ⟨fun _ _ _ _ => .ok [], 0, fun _ _ _ _ => .ok (), 0⟩
  adjustedWeightToFee := fun _ => 0
  reducibleBalance := fun _ => 10
  hold := fun _ _ => true
  burnFrom := fun _ _ => .ok ()
  releaseChannelReserve := fun _ _ _ => .ok ()
  noteTransferIn := fun _ _ => notesTransfers
  noteTransferOut := fun _ _ => notesTransfers
  isDomainRegistered := fun _ => true

/-- A message of channel `0` of domain `0` to this chain, relayed with the
proof of the message stored at its key. -/
def relayedFrom (nonce : ℕ) (payload : PayloadV1) (weightTag : MessageWeightTag) : CrossDomainMessage :=
  ⟨.domain 0, .consensus, 0, nonce, some ⟨.domain 0, .consensus, 0, nonce, payload, none⟩, weightTag⟩

/-- Domain `0` asks to open channel `0`. -/
def openRequest : CrossDomainMessage :=
  relayedFrom 0 (.protocol (.request (.channelOpen ⟨1⟩))) .protocolChannelOpen

/-- A request of domain `0` to endpoint `0`, its fees paid. -/
def endpointRequest (nonce : ℕ) : CrossDomainMessage :=
  relayedFrom nonce (.endpoint (.request ⟨⟨.id 0, .id 0, []⟩, ⟨0, 0⟩⟩)) (.endpointRequest (.id 0))

/-- Domain `0` accepts a channel this chain opened. -/
def openResponse (nonce : ℕ) : CrossDomainMessage :=
  relayedFrom nonce (.protocol (.response (.ok ()))) .protocolChannelOpen

end Subspace.Messenger
