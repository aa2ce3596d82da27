import Subspace.Domains.Messenger.Bookkeeping

/-!
# The messenger pallet: how a relayed message fails

`validate` and `prepare` of a relayed message write before its dispatch runs,
and only the dispatch is transactional: a dispatch that fails keeps what
`prepare` wrote, the channel's nonce moved past the message, and stores no
response. This module says when that happens.

With the books kept (`Reachable.bookkept`) the fees on hold cover every fee
released, and a message in the outbox is counted, so the rewards never raise
`BalanceUnderflow` and a response never raises `MessageCountUnderflow`. What
is left:

* the dispatch of a relayed message fails only where the currency refuses to
  note the transfer of its fee (`FailedToNoteTransferIn`,
  `relayMessage_dispatch_error`);
* the dispatch of a relayed response fails only where it answers a request
  that was never sent (`MissingMessage`, `relayMessageResponse_dispatch_error`).
-/

namespace Subspace.Messenger

open Function

variable {A : Type} {cfg : Config} {env : Env A} {s s' : State A}

/-! ## The rewards never underflow -/

/-- The reward loop takes off the map exactly what it adds to the fees taken,
so the fees on hold cover them. -/
theorem Bookkept.rewardOperatorsForInboxExecution_ok (books : Bookkept cfg s) (dstChainId : ChainId)
    (channelId : ℕ) (latestConfirmedNonce : Option ℕ) :
    ∃ s', Messenger.rewardOperatorsForInboxExecution s dstChainId channelId latestConfirmedNonce = .ok s' := by
  cases latestConfirmedNonce with
  | none => exact ⟨s, rfl⟩
  | some nonce =>
    have start : InboxKept cfg (s, 0).1 (s, 0).2 := ⟨books.inbox, books.inboxFeesOnHold⟩
    have onHold := (InboxKept.takeInboxResponses dstChainId channelId nonce start).onHold
    simp only [Messenger.rewardOperatorsForInboxExecution]
    generalize takeInboxResponses dstChainId channelId nonce (s, 0) = acc at onHold ⊢
    obtain ⟨s₁, fees⟩ := acc
    dsimp only at onHold ⊢
    split
    · exact ⟨s₁, rfl⟩
    · have covered : Nat.psub s₁.inboxFeesOnHold fees = some (∑ key ∈ s₁.inboxFee.keys, s₁.inboxFee.val key) :=
        Nat.psub_eq_some.mpr onHold.symm
      simp [covered]

/-- The fee of a request is part of the fees on hold. -/
theorem rewardOperatorsForOutboxExecution_ok
    (onHold : s.outboxFeesOnHold = ∑ key ∈ s.outboxFee.keys, s.outboxFee.val key) (dstChainId : ChainId)
    (messageId : ℕ × ℕ) : ∃ s', rewardOperatorsForOutboxExecution s dstChainId messageId = .ok s' := by
  unfold rewardOperatorsForOutboxExecution
  split
  · exact ⟨s, rfl⟩
  · rename_i fee held
    obtain ⟨present, value⟩ := BTreeMap.get?_eq_some.mp held
    have sum := BTreeMap.sum_remove_add s.outboxFee present
    have covered : Nat.psub s.outboxFeesOnHold fee =
        some (∑ key ∈ (s.outboxFee.remove (dstChainId, messageId)).keys,
          (s.outboxFee.remove (dstChainId, messageId)).val key) :=
      Nat.psub_eq_some.mpr (by rw [onHold, ← sum, value])
    simp [covered]

/-! ## A relayed message -/

theorem storeInboxFee_error {srcChainId : ChainId} {messageId : ℕ × ℕ} {inboxFees : ℕ} {e : DispatchError}
    (failed : storeInboxFee env s srcChainId messageId inboxFees = .error e) :
    e = .module .failedToNoteTransferIn ∧ env.noteTransferIn inboxFees srcChainId = false := by
  simp only [storeInboxFee, Except.bind_eq_error, ensure_eq_error, Bool.not_eq_true] at failed
  rcases failed with ⟨refused, rfl⟩ | ⟨_, _, stored⟩
  · exact ⟨rfl, refused⟩
  · exact absurd stored Except.pure_ne_error

/-- Processing a message fails only where its fee is refused: the answer to a
protocol request, or an endpoint request's handler, is the response and not a
failure. -/
theorem processInboxPayload_error [DecidableEq A] {msg : Message} {msgWeightTag : MessageWeightTag}
    {e : DispatchError} (failed : processInboxPayload env s msg msgWeightTag = .error e) :
    e = .module .failedToNoteTransferIn ∧ ∃ req, msg.payload = .endpoint (.request req) ∧
      env.noteTransferIn req.collectedFee.dstChainFee msg.srcChainId = false := by
  unfold processInboxPayload at failed
  split at failed
  · exact absurd failed Except.pure_ne_error
  · rename_i req payload
    simp only [Except.bind_eq_error] at failed
    rcases failed with refused | ⟨_, _, stored⟩
    · obtain ⟨rfl, refusedFee⟩ := storeInboxFee_error refused
      exact ⟨rfl, req, payload, refusedFee⟩
    · exact absurd stored Except.pure_ne_error
  · exact absurd failed Except.pure_ne_error
  · exact absurd failed Except.pure_ne_error

/-- `process_inbox_messages` fails, for a message that keeps the books, only
where the fee of an endpoint request is refused. -/
theorem Bookkept.processInboxMessages_error [DecidableEq A] (books : Bookkept cfg s) {msg : Message}
    {msgWeightTag : MessageWeightTag}
    (received : msg.nonce < channelField Channel.nextInboxNonce s.channels (msg.srcChainId, msg.channelId))
    (fresh : s.inboxResponses (msg.srcChainId, msg.channelId, msg.nonce) = none) {e : DispatchError}
    (failed : Messenger.processInboxMessages cfg env s msg msgWeightTag = .error e) :
    e = .module .failedToNoteTransferIn ∧ ∃ req, msg.payload = .endpoint (.request req) ∧
      env.noteTransferIn req.collectedFee.dstChainFee msg.srcChainId = false := by
  simp only [Messenger.processInboxMessages, Except.bind_eq_error] at failed
  rcases failed with refused | ⟨⟨respPayload, s₁⟩, processed, rewardFailed⟩
  · exact processInboxPayload_error refused
  · -- the response stored, the books are kept and the rewards are covered
    obtain ⟨_, rewarded⟩ := (books.processInboxPayload received fresh processed).rewardOperatorsForInboxExecution_ok
      msg.srcChainId msg.channelId msg.lastDeliveredMessageResponseNonce
    cases rewarded.symm.trans rewardFailed

/-- From a reachable state, the dispatch of a sound relayed message that
`validate` and `prepare` accept fails only where its fee is refused. The
message's nonce is then spent with no response. -/
theorem relayMessage_dispatch_error [DecidableEq A] (reachable : Reachable cfg s) {xdm : CrossDomainMessage}
    (sound : xdm.isSound = true) {s₁ : State A} (prepared : validateAndPrepare cfg s (.relayMessage xdm) = .ok s₁)
    {e : DispatchError} (failed : dispatch cfg env s₁ (.relayMessage xdm) = .error e) :
    e = .module .failedToNoteTransferIn ∧ ∃ msg req, xdm.proof = some msg ∧ msg.payload = .endpoint (.request req) ∧
      env.noteTransferIn req.collectedFee.dstChainFee xdm.srcChainId = false := by
  obtain ⟨books₁, inboxMsg, stored, received, fresh⟩ := reachable.bookkept.prepareRelayMessage sound prepared
  obtain ⟨msg, _, _, proved, sameSrc, -, -, -, -, -, rfl⟩ := preparedRelayMessage_eq sound prepared
  obtain rfl : msg = inboxMsg := Option.some.inj stored
  simp only [dispatch, relayMessage, Except.bind_eq_error, Option.okOr_eq_error, Option.okOr_eq_ok] at failed
  rcases failed with ⟨missing, -⟩ | ⟨_, found, failed⟩
  · cases missing
  cases found
  obtain ⟨rfl, req, payload, refused⟩ := (books₁.setInbox none).processInboxMessages_error received fresh failed
  exact ⟨rfl, msg, req, proved, payload, sameSrc ▸ refused⟩

/-- Once domain `0` has opened channel `0`, a request relayed while the
currency refuses to note its fee fails in its dispatch. -/
theorem relayMessage_dispatch_error_fee_refused :
    ∃ (s s₁ : State ℕ) (e : DispatchError), Reachable relayConfig s ∧
      validateAndPrepare relayConfig s (.relayMessage (endpointRequest 1)) = .ok s₁ ∧
      dispatch relayConfig (relayEnv false) s₁ (.relayMessage (endpointRequest 1)) = .error e ∧
      e = .module .failedToNoteTransferIn ∧ ∃ msg req, (endpointRequest 1).proof = some msg ∧
        msg.payload = .endpoint (.request req) ∧
        (relayEnv false).noteTransferIn req.collectedFee.dstChainFee (endpointRequest 1).srcChainId = false := by
  have reachable : Reachable relayConfig
      (step relayConfig (relayEnv true) (State.genesis {.domain 0}) (.call (.relayMessage openRequest))) :=
    .step _ _ rfl (.genesis _)
  -- `prepare` and the dispatch run on the state reached, which unification computes
  obtain ⟨s₁, e, prepared, failed⟩ : ∃ s₁ e, validateAndPrepare relayConfig
      (step relayConfig (relayEnv true) (State.genesis {.domain 0}) (.call (.relayMessage openRequest)))
      (.relayMessage (endpointRequest 1)) = .ok s₁ ∧
      dispatch relayConfig (relayEnv false) s₁ (.relayMessage (endpointRequest 1)) = .error e :=
    ⟨_, _, rfl, rfl⟩
  exact ⟨_, s₁, e, reachable, prepared, failed, relayMessage_dispatch_error reachable rfl prepared failed⟩

/-! ## A relayed response -/

/-- The outcome of a response fails only where the fee of its request does:
the handler's answer is the outcome and not a failure. -/
theorem processOutboxPayload_error {dstChainId : ChainId} {channelId nonce : ℕ}
    {reqPayload respPayload : PayloadV1} {respMsgWeightTag : MessageWeightTag} {e : DispatchError}
    (failed : processOutboxPayload env s dstChainId channelId nonce reqPayload respPayload respMsgWeightTag =
      .error e) :
    rewardOperatorsForOutboxExecution s dstChainId (channelId, nonce) = .error e := by
  unfold processOutboxPayload at failed
  split at failed
  · exact absurd failed Except.pure_ne_error
  · simp only [Except.bind_eq_error] at failed
    rcases failed with rewardFailed | ⟨_, _, answered⟩
    · exact rewardFailed
    · split at answered <;> exact absurd answered Except.pure_ne_error
  · exact absurd failed Except.pure_ne_error

/-- `process_outbox_message_responses` fails, with the books kept, only where
the outbox holds no request at the response's nonce. -/
theorem Bookkept.processOutboxMessageResponses_error (books : Bookkept cfg s) {respMsg : Message}
    {respMsgWeightTag : MessageWeightTag} {e : DispatchError}
    (failed : Messenger.processOutboxMessageResponses env s respMsg respMsgWeightTag = .error e) :
    e = .module .missingMessage ∧ s.outbox (respMsg.srcChainId, respMsg.channelId, respMsg.nonce) = none := by
  simp only [Messenger.processOutboxMessageResponses, Except.bind_eq_error, Option.okOr_eq_error,
    Option.okOr_eq_ok] at failed
  rcases failed with ⟨missing, rfl⟩ | ⟨reqMsg, stored, failed⟩
  · exact ⟨rfl, missing⟩
  rcases failed with ⟨counted, -⟩ | ⟨count, -, failed⟩
  · -- a message in the outbox is counted
    have counts := books.outbox.count_pos (by simp [stored] :
      (s.outbox (respMsg.srcChainId, respMsg.channelId, respMsg.nonce)).isSome)
    simp only [Nat.psub_eq_none] at counted
    omega
  rcases failed with payloadFailed | ⟨_, _, done⟩
  · obtain ⟨_, rewarded⟩ := rewardOperatorsForOutboxExecution_ok (s := { s with
        outbox := update s.outbox (respMsg.srcChainId, respMsg.channelId, respMsg.nonce) none
        outboxMessageCount := update s.outboxMessageCount (respMsg.srcChainId, respMsg.channelId) count
        outboxMessageWeightTags :=
          update s.outboxMessageWeightTags (respMsg.srcChainId, respMsg.channelId, respMsg.nonce) none })
      books.outboxFeesOnHold respMsg.srcChainId (respMsg.channelId, respMsg.nonce)
    rw [processOutboxPayload_error payloadFailed] at rewarded
    cases rewarded
  · exact absurd done Except.pure_ne_error

/-- From a reachable state, the dispatch of a sound relayed response that
`validate` and `prepare` accept fails only where it answers a request that was
never sent: its nonce is not below the channel's next outbox nonce. -/
theorem relayMessageResponse_dispatch_error [DecidableEq A] (reachable : Reachable cfg s)
    {xdm : CrossDomainMessage} (sound : xdm.isSound = true) {s₁ : State A}
    (prepared : validateAndPrepare cfg s (.relayMessageResponse xdm) = .ok s₁) {e : DispatchError}
    (failed : dispatch cfg env s₁ (.relayMessageResponse xdm) = .error e) :
    e = .module .missingMessage ∧
      channelField Channel.nextOutboxNonce s.channels (xdm.srcChainId, xdm.channelId) ≤ xdm.nonce := by
  have books := reachable.bookkept
  obtain ⟨books₁, -⟩ := books.prepareRelayMessageResponse sound prepared
  obtain ⟨msg, channel, -, sameSrc, sameChannel, sameNonce, found, atFirst, rfl⟩ :=
    preparedRelayMessageResponse_eq sound prepared
  simp only [dispatch, relayMessageResponse, Except.bind_eq_error, Option.okOr_eq_error,
    Option.okOr_eq_ok] at failed
  rcases failed with ⟨missing, -⟩ | ⟨_, found', failed⟩
  · cases missing
  cases found'
  rcases failed with processFailed | ⟨_, _, done⟩
  · obtain ⟨rfl, missing⟩ := (books₁.setOutboxResponses none).processOutboxMessageResponses_error processFailed
    refine ⟨rfl, Nat.le_of_not_lt fun sent => ?_⟩
    -- every request from the first unanswered one up to the next nonce is in the outbox
    have first : channelField Channel.firstUnanswered s.channels (xdm.srcChainId, xdm.channelId) ≤ xdm.nonce := by
      simp [channelField, found, atFirst]
    have := books.outbox.pending _ _ _ first sent
    dsimp only at missing
    rw [sameSrc, sameChannel, sameNonce] at missing
    simp [missing] at this
  · exact absurd done Except.pure_ne_error

/-- This chain opens channel `0` to domain `0`, which accepts; a response
relayed at nonce `1`, where nothing was sent, fails in its dispatch. -/
theorem relayMessageResponse_dispatch_error_unsent :
    ∃ (s s₁ : State ℕ) (e : DispatchError), Reachable relayConfig s ∧
      validateAndPrepare relayConfig s (.relayMessageResponse (openResponse 1)) = .ok s₁ ∧
      dispatch relayConfig (relayEnv true) s₁ (.relayMessageResponse (openResponse 1)) = .error e ∧
      e = .module .missingMessage ∧
      channelField Channel.nextOutboxNonce s.channels ((openResponse 1).srcChainId, (openResponse 1).channelId) ≤
        (openResponse 1).nonce := by
  have reachable : Reachable relayConfig
      (step relayConfig (relayEnv true) (step relayConfig (relayEnv true) (State.genesis {.domain 0})
        (.call (.initiateChannel 0 (.domain 0)))) (.call (.relayMessageResponse (openResponse 0)))) :=
    .step _ _ rfl (.step _ _ rfl (.genesis _))
  obtain ⟨s₁, e, prepared, failed⟩ : ∃ s₁ e, validateAndPrepare relayConfig
      (step relayConfig (relayEnv true) (step relayConfig (relayEnv true) (State.genesis {.domain 0})
        (.call (.initiateChannel 0 (.domain 0)))) (.call (.relayMessageResponse (openResponse 0))))
      (.relayMessageResponse (openResponse 1)) = .ok s₁ ∧
      dispatch relayConfig (relayEnv true) s₁ (.relayMessageResponse (openResponse 1)) = .error e :=
    ⟨_, _, rfl, rfl⟩
  exact ⟨_, s₁, e, reachable, prepared, failed, relayMessageResponse_dispatch_error reachable rfl prepared failed⟩

end Subspace.Messenger
