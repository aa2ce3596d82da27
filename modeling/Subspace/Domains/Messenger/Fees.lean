import Subspace.Domains.Messenger.Types

/-!
# The messenger pallet: fees

`fees.rs` and the fee stores of `lib.rs`. A request sent to another chain
pays two fees up front (`collect_fees_for_message_v1`): its execution on the
other chain, and the execution of the response here. The second is kept on
hold here under the message (`store_outbox_fee`) until the response comes
back; the first is kept on hold on the other chain (`store_inbox_fee`) until
this chain signals that it has the response. Releasing a fee takes it off
`OutboxFeesOnHold` or `InboxFeesOnHold` and gives it to the operators
(`reward_operators`).

`reward_operators_for_inbox_execution` walks down from the last response the
other chain has received, taking each inbox response and its fee, and stops
at the first nonce with no response.
-/

namespace Subspace.Messenger

variable {A : Type}

/-- `collect_fees_for_message_v1`: the fees of a request to the endpoint's
handler, burnt from the sender. -/
def collectFeesForMessageV1 (cfg : Config) (env : Env A) (sender : A) (endpoint : Endpoint) :
    Except DispatchError CollectedFee := do
  let handler ← (env.getEndpointHandler endpoint).okOr (.module .noMessageHandler)
  let dstChainFee := env.adjustedWeightToFee handler.messageWeight * cfg.feeMultiplier
  let srcChainFee := env.adjustedWeightToFee handler.messageResponseWeight * cfg.feeMultiplier
  env.burnFrom sender (dstChainFee + srcChainFee)
  pure { srcChainFee, dstChainFee }

/-- `store_inbox_fee`: the fee of executing a request from `srcChainId`, put
on hold under the request. -/
def storeInboxFee (env : Env A) (s : State A) (srcChainId : ChainId) (messageId : ℕ × ℕ)
    (inboxFees : ℕ) : Except DispatchError (State A) := do
  let s := { s with
    inboxFeesOnHold := s.inboxFeesOnHold + inboxFees
    inboxFee := s.inboxFee.insert (srcChainId, messageId) inboxFees }
  ensure (env.noteTransferIn inboxFees srcChainId) (.module .failedToNoteTransferIn)
  pure s

/-- `store_outbox_fee`: the fee of executing the response to a request sent
to `dstChainId`, put on hold under the request. -/
def storeOutboxFee (env : Env A) (s : State A) (dstChainId : ChainId) (messageId : ℕ × ℕ)
    (outboxFees inboxFees : ℕ) : Except DispatchError (State A) := do
  let s := { s with
    outboxFeesOnHold := s.outboxFeesOnHold + outboxFees
    outboxFee := s.outboxFee.insert (dstChainId, messageId) outboxFees }
  ensure (env.noteTransferOut inboxFees dstChainId) (.module .failedToNoteTransferOut)
  pure s

/-- One iteration of the loop of `reward_operators_for_inbox_execution`, at
`nonce`, on the state and the fees taken so far: the response at `nonce`,
its weight tag and its fee are taken. `none` where there is no response,
which ends the loop. -/
def takeInboxResponse (dstChainId : ChainId) (channelId nonce : ℕ) (acc : State A × ℕ) :
    Option (State A × ℕ) :=
  let key := (dstChainId, channelId, nonce)
  let s := acc.1
  match s.inboxResponses key with
  | none => none
  | some _ =>
    let s := { s with
      inboxResponses := Function.update s.inboxResponses key none
      inboxResponseMessageWeightTags := Function.update s.inboxResponseMessageWeightTags key none }
    match s.inboxFee.get? key with
    | some inboxFee => some ({ s with inboxFee := s.inboxFee.remove key }, acc.2 + inboxFee)
    | none => some (s, acc.2)

/-- The loop of `reward_operators_for_inbox_execution`, from `nonce` down to
the first nonce with no response, or through nonce `0`. -/
def takeInboxResponses (dstChainId : ChainId) (channelId : ℕ) : ℕ → State A × ℕ → State A × ℕ
  | 0, acc => (takeInboxResponse dstChainId channelId 0 acc).getD acc
  | nonce + 1, acc =>
    match takeInboxResponse dstChainId channelId (nonce + 1) acc with
    | none => acc
    | some acc => takeInboxResponses dstChainId channelId nonce acc

/-- `reward_operators_for_inbox_execution`: the responses up to
`latestConfirmedNonce` have reached the other chain; take them with their fees
and give the fees to the operators. -/
def rewardOperatorsForInboxExecution (s : State A) (dstChainId : ChainId) (channelId : ℕ)
    (latestConfirmedNonce : Option ℕ) : Except DispatchError (State A) :=
  match latestConfirmedNonce with
  | none => pure s
  | some nonce =>
    let (s, inboxFees) := takeInboxResponses dstChainId channelId nonce (s, 0)
    if inboxFees = 0 then pure s
    else do
      let inboxFeesOnHold ← (Nat.psub s.inboxFeesOnHold inboxFees).okOr (.module .balanceUnderflow)
      pure { s with inboxFeesOnHold, xdmRewards := s.xdmRewards + inboxFees }

/-- `reward_operators_for_outbox_execution`: the response to the request
`messageId` has arrived; its fee goes to the operators. -/
def rewardOperatorsForOutboxExecution (s : State A) (dstChainId : ChainId) (messageId : ℕ × ℕ) :
    Except DispatchError (State A) :=
  match s.outboxFee.get? (dstChainId, messageId) with
  | none => pure s
  | some fee => do
    let outboxFeesOnHold ← (Nat.psub s.outboxFeesOnHold fee).okOr (.module .balanceUnderflow)
    pure { s with
      outboxFee := s.outboxFee.remove (dstChainId, messageId)
      outboxFeesOnHold
      xdmRewards := s.xdmRewards + fee }

end Subspace.Messenger
