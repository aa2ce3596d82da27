import Subspace.Domains.Messenger.Channels
import Subspace.Domains.Messenger.Fees

/-!
# The messenger pallet: messages

`messages.rs`. A message to another chain goes to the outbox of its channel
under the channel's next outbox nonce (`new_outbox_message`). A message from
another chain is answered: its response goes to the inbox responses under
the message's own key (`process_inbox_messages`). A response from another
chain takes its request out of the outbox (`process_outbox_message_responses`).
Relayers find what to carry by the weight tags stored beside each message
(`get_block_messages`).

The result of processing a request is its response, not a failure of the
call: a protocol request that fails to open or close the channel, or an
endpoint request its handler rejects, is answered with the error. The calls
fail only where the source returns early with `?`.
-/

namespace Subspace.Messenger

variable {A : Type} [DecidableEq A]

/-- `new_outbox_message`: the message's nonce, and the state with the message
in the outbox of `(dstChainId, channelId)`. -/
def newOutboxMessage (s : State A) (srcChainId dstChainId : ChainId) (channelId : ℕ)
    (payload : PayloadV1) : Except DispatchError (ℕ × State A) := do
  ensure (srcChainId ≠ dstChainId) (.module .invalidMessageDestination)
  let channel ← (s.channels (dstChainId, channelId)).okOr (.module .missingChannel)
  let count := s.outboxMessageCount (dstChainId, channelId)
  ensure (count < channel.maxOutgoingMessages.toNat) (.module .outboxFull)
  let weightTag := MessageWeightTag.outbox payload
  let nextOutboxNonce := channel.nextOutboxNonce
  let msg : Message :=
    { srcChainId, dstChainId, channelId
      nonce := nextOutboxNonce
      payload
      lastDeliveredMessageResponseNonce := channel.latestResponseReceivedMessageNonce }
  -- `count.checked_add(1u32)`
  ensure (count + 1 < 2 ^ 32) (.module .messageCountOverflow)
  let nonce ← (checkedAddOne nextOutboxNonce).okOr .arithmeticOverflow
  pure (nextOutboxNonce,
    { s with
      outbox := Function.update s.outbox (dstChainId, channelId, nextOutboxNonce) (some msg)
      outboxMessageCount := Function.update s.outboxMessageCount (dstChainId, channelId) (count + 1)
      channels := Function.update s.channels (dstChainId, channelId)
        (some { channel with nextOutboxNonce := nonce })
      outboxMessageWeightTags :=
        Function.update s.outboxMessageWeightTags (dstChainId, channelId, nextOutboxNonce) (some weightTag) })

/-- `process_incoming_endpoint_message_req`: the handler's answer, given the
pallet's checks of the request (its tag, an open channel, an allowed chain). -/
def processIncomingEndpointMessageReq (s : State A) (dstChainId : ChainId) (req : EndpointRequest)
    (channelId nonce : ℕ) (msgWeightTag : MessageWeightTag) (endpointHandler : EndpointHandler) :
    Except DispatchError (List ℕ) :=
  let preCheckHandler : Except DispatchError Unit := do
    ensure (msgWeightTag = .endpointRequest req.dstEndpoint) (.module .weightTagNotMatch)
    let channel ← (s.channels (dstChainId, channelId)).okOr (.module .missingChannel)
    ensure (channel.state = .open) (.module .invalidChannelState)
    ensure (dstChainId ∈ s.chainAllowlist) (.module .chainNotAllowed)
  endpointHandler.message dstChainId (channelId, nonce) req preCheckHandler

/-- `process_incoming_protocol_message_req`: open or close the channel as the
other chain asks. -/
def processIncomingProtocolMessageReq (env : Env A) (s : State A) (chainId : ChainId) (channelId : ℕ)
    (req : ProtocolMessageRequest) (weightTag : MessageWeightTag) : Except DispatchError (State A) :=
  let isChainAllowed := decide (chainId ∈ s.chainAllowlist)
  match req with
  | .channelOpen _ =>
    if !isChainAllowed then .error (.module .chainNotAllowed)
    else if weightTag ≠ .protocolChannelOpen then .error (.module .weightTagNotMatch)
    else doOpenChannel s chainId channelId
  | .channelClose =>
    if weightTag ≠ .protocolChannelClose then .error (.module .weightTagNotMatch)
    -- the other chain closed the channel, so it is closed here as by sudo
    else doCloseChannel env s chainId channelId .sudo

/-- The response payload to a message from another chain, and the state after
processing it: the state a protocol request leaves where it succeeds, the fee
of an endpoint request stored. -/
def processInboxPayload (env : Env A) (s : State A) (msg : Message) (msgWeightTag : MessageWeightTag) :
    Except DispatchError (PayloadV1 × State A) :=
  let dstChainId := msg.srcChainId
  match msg.payload with
  | .protocol (.request req) =>
    let result := processIncomingProtocolMessageReq env s dstChainId msg.channelId req msgWeightTag
    pure (.protocol (.response (result.map fun _ => ())), result.toOption.getD s)
  | .endpoint (.request req) => do
    -- the fee was paid on the other chain, so it is kept whatever the handler answers
    let s ← storeInboxFee env s dstChainId (msg.channelId, msg.nonce) req.collectedFee.dstChainFee
    let response := match env.getEndpointHandler req.req.dstEndpoint with
      | some endpointHandler =>
        processIncomingEndpointMessageReq s dstChainId req.req msg.channelId msg.nonce msgWeightTag
          endpointHandler
      | none => .error (.module .noMessageHandler)
    pure (.endpoint (.response response), s)
  | .protocol (.response _) => pure (.protocol (.response (.error (.module .invalidMessagePayload))), s)
  | .endpoint (.response _) => pure (.endpoint (.response (.error (.module .invalidMessagePayload))), s)

/-- `process_inbox_messages`: answer a message from another chain, store the
response under the message's key, and take the responses the other chain has
received. -/
def processInboxMessages (cfg : Config) (env : Env A) (s : State A) (msg : Message)
    (msgWeightTag : MessageWeightTag) : Except DispatchError (State A) := do
  let dstChainId := msg.srcChainId
  let key := (dstChainId, msg.channelId, msg.nonce)
  let (respPayload, s) ← processInboxPayload env s msg msgWeightTag
  let weightTag := MessageWeightTag.inboxResponse msgWeightTag respPayload
  let response : Message :=
    { srcChainId := cfg.selfChainId, dstChainId
      channelId := msg.channelId
      nonce := msg.nonce
      payload := respPayload
      lastDeliveredMessageResponseNonce := none }
  let s := { s with
    inboxResponses := Function.update s.inboxResponses key (some response)
    inboxResponseMessageWeightTags := Function.update s.inboxResponseMessageWeightTags key (some weightTag)
    updatedChannels := insert (dstChainId, msg.channelId) s.updatedChannels }
  rewardOperatorsForInboxExecution s dstChainId msg.channelId msg.lastDeliveredMessageResponseNonce

/-- `process_incoming_protocol_message_response`: a channel open the other
chain accepted opens the channel here; every other answer changes nothing. -/
def processIncomingProtocolMessageResponse (s : State A) (chainId : ChainId) (channelId : ℕ)
    (req : ProtocolMessageRequest) (resp : Except DispatchError Unit) (weightTag : MessageWeightTag) :
    Except DispatchError (State A) :=
  match req, resp with
  | .channelOpen _, .ok _ =>
    if weightTag ≠ .protocolChannelOpen then .error (.module .weightTagNotMatch)
    else doOpenChannel s chainId channelId
  | _, _ => pure s

/-- `process_incoming_endpoint_message_response`: the handler takes the answer. -/
def processIncomingEndpointMessageResponse (dstChainId : ChainId) (channelId nonce : ℕ)
    (respMsgWeightTag : MessageWeightTag) (req : EndpointRequest) (resp : Except DispatchError (List ℕ))
    (endpointHandler : EndpointHandler) : Except DispatchError Unit :=
  if respMsgWeightTag ≠ .endpointResponse req.dstEndpoint then .error (.module .weightTagNotMatch)
  else endpointHandler.messageResponse dstChainId (channelId, nonce) req resp

/-- The outcome of a response to a request this chain sent, and the state after
it: a protocol answer's channel change where it succeeds, the fee of an
endpoint request released. -/
def processOutboxPayload (env : Env A) (s : State A) (dstChainId : ChainId) (channelId nonce : ℕ)
    (reqPayload respPayload : PayloadV1) (respMsgWeightTag : MessageWeightTag) :
    Except DispatchError (Except DispatchError Unit × State A) :=
  match reqPayload, respPayload with
  | .protocol (.request req), .protocol (.response resp) =>
    let result := processIncomingProtocolMessageResponse s dstChainId channelId req resp respMsgWeightTag
    pure (result.map fun _ => (), result.toOption.getD s)
  | .endpoint (.request req), .endpoint (.response resp) => do
    -- the fee is released whatever the handler makes of the answer
    let s ← rewardOperatorsForOutboxExecution s dstChainId (channelId, nonce)
    match env.getEndpointHandler req.req.dstEndpoint with
    | some endpointHandler =>
      pure (processIncomingEndpointMessageResponse dstChainId channelId nonce respMsgWeightTag req.req resp
        endpointHandler, s)
    | none => pure (.error (.module .noMessageHandler), s)
  | _, _ => pure (.error (.module .invalidMessagePayload), s)

/-- `process_outbox_message_responses`: the state after the response, and the
`OutboxMessageResult` of its event. -/
def processOutboxMessageResponses (env : Env A) (s : State A) (respMsg : Message)
    (respMsgWeightTag : MessageWeightTag) : Except DispatchError (State A × Except DispatchError Unit) := do
  let dstChainId := respMsg.srcChainId
  let key := (dstChainId, respMsg.channelId, respMsg.nonce)
  let reqMsg ← (s.outbox key).okOr (.module .missingMessage)
  let count ← (Nat.psub (s.outboxMessageCount (dstChainId, respMsg.channelId)) 1).okOr
    (.module .messageCountUnderflow)
  let s := { s with
    outbox := Function.update s.outbox key none
    outboxMessageCount := Function.update s.outboxMessageCount (dstChainId, respMsg.channelId) count
    outboxMessageWeightTags := Function.update s.outboxMessageWeightTags key none }
  let (resp, s) ← processOutboxPayload env s dstChainId respMsg.channelId respMsg.nonce reqMsg.payload
    respMsg.payload respMsgWeightTag
  pure ({ s with updatedChannels := insert (dstChainId, respMsg.channelId) s.updatedChannels }, resp)

/-- `get_weight_tags`: the weight tags from `nonce` up, stopping at the first
nonce with none. The loop runs while it has at most `MAX_FUTURE_ALLOWED_NONCES`
tags, so it takes at most one more. Its `BTreeMap` is filled in increasing
order of nonce and is kept as the list of its entries. -/
def getWeightTags (weightTagGetter : ChainId × ℕ × ℕ → Option MessageWeightTag) (chainId : ChainId)
    (channelId nonce : ℕ) : List (ℕ × MessageWeightTag) :=
  loop (maxFutureAllowedNonces + 1) nonce
where
  /-- The loop, with the number of iterations it may still make. -/
  loop : ℕ → ℕ → List (ℕ × MessageWeightTag)
    | 0, _ => []
    | remaining + 1, nonce =>
      match weightTagGetter (chainId, channelId, nonce) with
      | none => []
      | some weightTag =>
        (nonce, weightTag) ::
          match checkedAddOne nonce with
          | none => []
          | some nonce => loop remaining nonce

/-- `BlockMessagesQuery`. -/
structure BlockMessagesQuery where
  chainId : ChainId
  channelId : ℕ
  outboxFrom : ℕ
  inboxResponsesFrom : ℕ

/-- `MessageNonceWithStorageKey`; the storage key is the key the value is
stored under, before hashing. -/
structure MessageNonceWithStorageKey where
  nonce : ℕ
  storageKey : ChainId × ℕ × ℕ
  weightTag : MessageWeightTag
deriving DecidableEq

/-- `MessagesWithStorageKey`. -/
structure MessagesWithStorageKey where
  outbox : List MessageNonceWithStorageKey
  inboxResponses : List MessageNonceWithStorageKey
deriving DecidableEq

/-- `get_block_messages`: the outbox messages and inbox responses of a channel
for a relayer to carry, each from the nonce it asks for. -/
def getBlockMessages (s : State A) (query : BlockMessagesQuery) : MessagesWithStorageKey :=
  let inboxResponsesWeightTags :=
    getWeightTags s.inboxResponseMessageWeightTags query.chainId query.channelId query.inboxResponsesFrom
  let outboxWeightTags :=
    getWeightTags s.outboxMessageWeightTags query.chainId query.channelId query.outboxFrom
  let withStorageKey := fun (entry : ℕ × MessageWeightTag) =>
    ({ nonce := entry.1, storageKey := (query.chainId, query.channelId, entry.1), weightTag := entry.2 } :
      MessageNonceWithStorageKey)
  if outboxWeightTags.isEmpty ∧ inboxResponsesWeightTags.isEmpty then ⟨[], []⟩
  else
    { inboxResponses := inboxResponsesWeightTags.map withStorageKey
      outbox := outboxWeightTags.map withStorageKey }

end Subspace.Messenger
