import Subspace.Domains.Messenger.Bookkeeping
import Subspace.Lib.Counter

/-!
# The messenger pallet: every message relayed once, in order

`validate` and `prepare` accept a relayed message only at the next inbox nonce
of its channel, and a relayed response only at the channel's first unanswered
nonce; `prepare` then moves that nonce past it, and nothing else writes
either. Over any run from a reachable state, the messages a channel accepts
are therefore numbered by exactly the nonces its next inbox nonce moves over,
each once and in order (`acceptedMessages_eq_range'`), and so are its
responses (`acceptedResponses_eq_range'`). A message relayed twice, out of
order or past a gap is rejected before its dispatch.

The nonces the dispatch of a call never writes are `PreparedField`s: fields of
a channel that read neither its state nor its next outbox nonce, and are `0`
on a channel just initiated, so that they read as where there was no channel.
-/

namespace Subspace.Messenger

open Function

variable {A : Type} {cfg : Config} {env : Env A} {s s' : State A}

/-! ## The fields only `prepare` writes -/

/-- A field of a channel that the dispatch of a call does not write. -/
structure PreparedField (f : Channel A → ℕ) : Prop where
  state : ∀ (channel : Channel A) (state : ChannelState), f { channel with state } = f channel
  nextOutboxNonce : ∀ (channel : Channel A) (nextOutboxNonce : ℕ), f { channel with nextOutboxNonce } = f channel
  initial : ∀ channelId initParams (maybeOwner : Option A) channelReserveFee,
    f (initialChannel channelId initParams maybeOwner channelReserveFee) = 0

theorem preparedField_nextInboxNonce : PreparedField (Channel.nextInboxNonce : Channel A → ℕ) :=
  ⟨fun _ _ => rfl, fun _ _ => rfl, fun _ _ _ _ => rfl⟩

theorem preparedField_firstUnanswered : PreparedField (Channel.firstUnanswered : Channel A → ℕ) :=
  ⟨fun _ _ => rfl, fun _ _ => rfl, fun _ _ _ _ => rfl⟩

theorem rewardOperatorsForOutboxExecution_channels {dstChainId : ChainId} {messageId : ℕ × ℕ}
    (rewarded : rewardOperatorsForOutboxExecution s dstChainId messageId = .ok s') : s'.channels = s.channels := by
  rcases rewardOperatorsForOutboxExecution_eq_ok rewarded with rfl | ⟨_, _, _, _, rfl⟩ <;> rfl

namespace PreparedField

variable {f : Channel A → ℕ}

theorem changesState (field : PreparedField f) (changes : ChangesState s s') :
    channelField f s'.channels = channelField f s.channels := by
  obtain ⟨key, old, present, state, rfl⟩ := changes
  exact channelField_update_of_eq f present _ (field.state old state)

/-- A new channel reads as where there was none. -/
theorem doInitChannel (field : PreparedField f) (ids : ChannelIds s.channels s.nextChannelId)
    {dstChainId : ChainId} {initParams : ChannelOpenParamsV1} {maybeOwner : Option A} {checkAllowlist : Bool}
    {channelReserveFee channelId : ℕ}
    (initiated : Messenger.doInitChannel cfg s dstChainId initParams maybeOwner checkAllowlist channelReserveFee =
      .ok (channelId, s')) :
    channelField f s'.channels = channelField f s.channels := by
  obtain ⟨_, _, rfl, rfl⟩ := doInitChannel_eq_ok initiated
  exact ids.channelField_init _ f (field.initial _ _ _ _)

theorem newOutboxMessage (field : PreparedField f) {srcChainId dstChainId : ChainId} {channelId nonce : ℕ}
    {payload : PayloadV1} (sent : Messenger.newOutboxMessage s srcChainId dstChainId channelId payload = .ok (nonce, s')) :
    channelField f s'.channels = channelField f s.channels := by
  obtain ⟨channel, found, _, _, _, rfl, rfl⟩ := newOutboxMessage_eq_ok sent
  exact channelField_update_of_eq f found _ (field.nextOutboxNonce channel _)

theorem processInboxMessages [DecidableEq A] (field : PreparedField f) {msg : Message}
    {msgWeightTag : MessageWeightTag} (processed : Messenger.processInboxMessages cfg env s msg msgWeightTag = .ok s') :
    channelField f s'.channels = channelField f s.channels := by
  simp only [Messenger.processInboxMessages, Except.bind_eq_ok] at processed
  obtain ⟨⟨respPayload, s₁⟩, payloadProcessed, rewarded⟩ := processed
  -- storing the response and taking the confirmed ones write no channel
  rw [rewardOperatorsForInboxExecution_channels rewarded]
  show channelField f s₁.channels = _
  rcases processInboxPayload_eq_ok payloadProcessed with rfl | changes | ⟨fee, -, rfl⟩
  · rfl
  · exact field.changesState changes
  · rfl

theorem processOutboxMessageResponses (field : PreparedField f) {respMsg : Message}
    {respMsgWeightTag : MessageWeightTag} {resp : Except DispatchError Unit}
    (processed : Messenger.processOutboxMessageResponses env s respMsg respMsgWeightTag = .ok (s', resp)) :
    channelField f s'.channels = channelField f s.channels := by
  simp only [Messenger.processOutboxMessageResponses, Except.bind_eq_ok, Option.okOr_eq_ok, Nat.psub_eq_some,
    Except.pure_eq_ok, Prod.mk.injEq] at processed
  obtain ⟨reqMsg, found, count, counted, ⟨resp', s₁⟩, payloadProcessed, rfl, -⟩ := processed
  show channelField f s₁.channels = _
  rcases processOutboxPayload_eq_ok payloadProcessed with rfl | changes | rewarded
  · rfl
  · rw [field.changesState changes]
  · rw [rewardOperatorsForOutboxExecution_channels rewarded]

/-- The dispatch of every call leaves the field of every channel. -/
theorem dispatch [DecidableEq A] (field : PreparedField f) (ids : ChannelIds s.channels s.nextChannelId)
    {call : Call A} (dispatched : Messenger.dispatch cfg env s call = .ok s') :
    channelField f s'.channels = channelField f s.channels := by
  cases call with
  | initiateChannel owner dstChainId =>
    simp only [Messenger.dispatch, initiateChannel, Except.bind_eq_ok, ensure_eq_ok, Except.pure_eq_ok] at dispatched
    obtain ⟨_, _, _, _, ⟨channelId, s₁⟩, initiated, ⟨nonce, s₂⟩, sent, rfl⟩ := dispatched
    rw [field.newOutboxMessage sent, field.doInitChannel ids initiated]
  | closeChannel closeChannelBy chainId channelId =>
    simp only [Messenger.dispatch, closeChannel, Except.bind_eq_ok, Except.pure_eq_ok] at dispatched
    obtain ⟨s₁, closed, ⟨nonce, s₂⟩, sent, rfl⟩ := dispatched
    rw [field.newOutboxMessage sent, field.changesState (doCloseChannel_changesState closed)]
  | relayMessage xdm =>
    simp only [Messenger.dispatch, relayMessage, Except.bind_eq_ok, Option.okOr_eq_ok] at dispatched
    obtain ⟨_, _, processed⟩ := dispatched
    rw [field.processInboxMessages processed]
  | relayMessageResponse xdm =>
    simp only [Messenger.dispatch, relayMessageResponse, Except.bind_eq_ok, Option.okOr_eq_ok,
      Except.pure_eq_ok] at dispatched
    obtain ⟨_, _, ⟨s₁, resp⟩, processed, rfl⟩ := dispatched
    rw [field.processOutboxMessageResponses processed]
  | updateConsensusChainAllowlist update =>
    simp only [Messenger.dispatch, updateConsensusChainAllowlist, Except.bind_eq_ok, ensure_eq_ok,
      Except.pure_eq_ok] at dispatched
    obtain ⟨_, _, _, _, _, _, rfl⟩ := dispatched
    rfl
  | updateDomainAllowlist updates =>
    simp only [Messenger.dispatch, updateDomainAllowlist, Except.bind_eq_ok, ensure_eq_ok,
      Except.pure_eq_ok] at dispatched
    obtain ⟨_, _, rfl⟩ := dispatched
    rfl

theorem sendMessage (field : PreparedField f) {sender : A} {dstChainId : ChainId} {req : EndpointRequest}
    {messageId : ℕ × ℕ} (sent : Messenger.sendMessage cfg env s sender dstChainId req = .ok (messageId, s')) :
    channelField f s'.channels = channelField f s.channels := by
  simp only [Messenger.sendMessage, Except.bind_eq_ok, ensure_eq_ok, Option.okOr_eq_ok, Except.pure_eq_ok,
    Prod.mk.injEq] at sent
  obtain ⟨_, _, channelId, _, collectedFee, _, ⟨nonce, s₁⟩, pushed, s₂, stored, _, rfl⟩ := sent
  obtain ⟨_, rfl⟩ := storeOutboxFee_eq_ok stored
  rw [← field.newOutboxMessage pushed]

end PreparedField

/-! ## What `prepare` writes -/

/-- A call: `validate` and `prepare`, then the dispatch, whose changes are kept
only where it succeeds. -/
theorem step_call [DecidableEq A] (cfg : Config) (env : Env A) (s : State A) (call : Call A) :
    step cfg env s (.call call) =
      match validateAndPrepare cfg s call with
      | .ok s₁ =>
        match dispatch cfg env s₁ call with
        | .ok s₂ => s₂
        | .error _ => s₁
      | .error _ => s := by
  simp only [step, applyExtrinsic]
  cases validateAndPrepare cfg s call with
  | error _ => rfl
  | ok s₁ =>
    simp only [Except.ok_bind]
    cases dispatch cfg env s₁ call <;> rfl

/-- The state `validate` and `prepare` leave for a transaction: the state as
it was where they reject it, or where it is not a call of the pallet. -/
def preparedState (cfg : Config) (s : State A) : Transaction A → State A
  | .call call =>
    match validateAndPrepare cfg s call with
    | .ok s₁ => s₁
    | .error _ => s
  | _ => s

/-- After `prepare`, a transaction leaves every field only `prepare` writes. -/
theorem PreparedField.step [DecidableEq A] {f : Channel A → ℕ} (field : PreparedField f) (books : Bookkept cfg s)
    {tx : Transaction A} (sound : tx.isSound = true) :
    channelField f (step cfg env s tx).channels = channelField f (preparedState cfg s tx).channels := by
  cases tx with
  | call call =>
    rw [step_call]
    simp only [preparedState]
    cases prepared : validateAndPrepare cfg s call with
    | error _ => rfl
    | ok s₁ =>
      have ids := (books.validateAndPrepare env sound prepared).1.channelIds
      dsimp only
      -- a failed dispatch keeps the prepared state
      cases dispatched : Messenger.dispatch cfg env s₁ call with
      | error _ => rfl
      | ok s₂ => exact field.dispatch ids dispatched
  | sendMessage sender dstChainId req =>
    simp only [Messenger.step, preparedState]
    cases sent : Messenger.sendMessage cfg env s sender dstChainId req with
    | error _ => rfl
    | ok result => exact field.sendMessage sent
  | onInitialize => rfl

/-- `prepare` of a relayed message moves the next inbox nonce of its channel,
which was the message's nonce, past it. -/
theorem Bookkept.preparedRelayMessage_nextInboxNonce (books : Bookkept cfg s) {xdm : CrossDomainMessage}
    (sound : xdm.isSound = true) {s₁ : State A} (prepared : Messenger.validateAndPrepare cfg s (.relayMessage xdm) = .ok s₁) :
    xdm.nonce = channelField Channel.nextInboxNonce s.channels (xdm.srcChainId, xdm.channelId) ∧
      channelField Channel.nextInboxNonce s₁.channels =
        update (channelField Channel.nextInboxNonce s.channels) (xdm.srcChainId, xdm.channelId) (xdm.nonce + 1) := by
  obtain ⟨msg, s₀, channel, -, -, -, -, atNext, started, found, rfl⟩ := preparedRelayMessage_eq sound prepared
  have unchanged : channelField Channel.nextInboxNonce s₀.channels =
      channelField Channel.nextInboxNonce s.channels := by
    rcases started with rfl | ⟨params, channelId, initiated⟩
    · rfl
    · exact preparedField_nextInboxNonce.doInitChannel books.channelIds initiated
  refine ⟨atNext, ?_⟩
  dsimp only
  rw [channelField_update, unchanged]

/-- `prepare` of a relayed message leaves the first unanswered nonces. -/
theorem Bookkept.preparedRelayMessage_firstUnanswered (books : Bookkept cfg s) {xdm : CrossDomainMessage}
    (sound : xdm.isSound = true) {s₁ : State A} (prepared : Messenger.validateAndPrepare cfg s (.relayMessage xdm) = .ok s₁) :
    channelField Channel.firstUnanswered s₁.channels = channelField Channel.firstUnanswered s.channels := by
  obtain ⟨msg, s₀, channel, -, -, -, -, -, started, found, rfl⟩ := preparedRelayMessage_eq sound prepared
  dsimp only
  rw [channelField_update_of_eq Channel.firstUnanswered found _ (by rfl)]
  rcases started with rfl | ⟨params, channelId, initiated⟩
  · rfl
  · exact preparedField_firstUnanswered.doInitChannel books.channelIds initiated

/-- `prepare` of a relayed response moves the first unanswered nonce of its
channel, which was the response's nonce, past it. -/
theorem preparedRelayMessageResponse_firstUnanswered {xdm : CrossDomainMessage} (sound : xdm.isSound = true)
    {s₁ : State A} (prepared : Messenger.validateAndPrepare cfg s (.relayMessageResponse xdm) = .ok s₁) :
    xdm.nonce = channelField Channel.firstUnanswered s.channels (xdm.srcChainId, xdm.channelId) ∧
      channelField Channel.firstUnanswered s₁.channels =
        update (channelField Channel.firstUnanswered s.channels) (xdm.srcChainId, xdm.channelId) (xdm.nonce + 1) := by
  obtain ⟨msg, channel, -, -, -, -, found, atFirst, rfl⟩ := preparedRelayMessageResponse_eq sound prepared
  refine ⟨by simp [channelField, found, atFirst], ?_⟩
  dsimp only
  rw [channelField_update]
  rfl

/-- `prepare` of a relayed response leaves the next inbox nonces. -/
theorem preparedRelayMessageResponse_nextInboxNonce {xdm : CrossDomainMessage} (sound : xdm.isSound = true)
    {s₁ : State A} (prepared : Messenger.validateAndPrepare cfg s (.relayMessageResponse xdm) = .ok s₁) :
    channelField Channel.nextInboxNonce s₁.channels = channelField Channel.nextInboxNonce s.channels := by
  obtain ⟨msg, channel, -, -, -, -, found, -, rfl⟩ := preparedRelayMessageResponse_eq sound prepared
  exact channelField_update_of_eq Channel.nextInboxNonce found _ (by rfl)

/-! ## Each message accepted once, in order -/

/-- The nonce of a relayed message from the channel `key` that `validate` and
`prepare` accept. -/
def acceptedMessages (cfg : Config) (key : ChainId × ℕ) (s : State A) : Transaction A → List ℕ
  | .call (.relayMessage xdm) =>
    match validateAndPrepare cfg s (.relayMessage xdm) with
    | .ok _ => if (xdm.srcChainId, xdm.channelId) = key then [xdm.nonce] else []
    | .error _ => []
  | _ => []

/-- The nonce of a relayed response from the channel `key` that `validate`
and `prepare` accept. -/
def acceptedResponses (cfg : Config) (key : ChainId × ℕ) (s : State A) : Transaction A → List ℕ
  | .call (.relayMessageResponse xdm) =>
    match validateAndPrepare cfg s (.relayMessageResponse xdm) with
    | .ok _ => if (xdm.srcChainId, xdm.channelId) = key then [xdm.nonce] else []
    | .error _ => []
  | _ => []

/-- The step of a run, on a transaction with what it finds outside the pallet. -/
def runStep [DecidableEq A] (cfg : Config) (s : State A) (tx : Env A × Transaction A) : State A :=
  step cfg tx.1 s tx.2

theorem run_eq_foldl [DecidableEq A] (cfg : Config) (s : State A) (txs : List (Env A × Transaction A)) :
    run cfg s txs = txs.foldl (runStep cfg) s := rfl

/-- A nonce that `prepare` moves by one exactly where it accepts, at it. -/
theorem numbers_of_prepared [DecidableEq A] {accept : State A → Transaction A → List ℕ} {f : Channel A → ℕ}
    {key : ChainId × ℕ} {tx : Transaction A}
    (prepared : accept s tx = [] ∧
        channelField f (preparedState cfg s tx).channels key = channelField f s.channels key ∨
      accept s tx = [channelField f s.channels key] ∧
        channelField f (preparedState cfg s tx).channels key = channelField f s.channels key + 1)
    (stepped : channelField f (step cfg env s tx).channels = channelField f (preparedState cfg s tx).channels) :
    Lib.Numbers (runStep cfg) (fun s tx => accept s tx.2) (fun s => channelField f s.channels key) s (env, tx) := by
  unfold Lib.Numbers runStep
  dsimp only
  rw [stepped]
  exact prepared

/-- The relayed message accepted at a channel, if any, is at its next inbox
nonce, which moves past it. -/
theorem Bookkept.acceptedMessages_numbers (books : Bookkept cfg s) {tx : Transaction A}
    (sound : tx.isSound = true) (key : ChainId × ℕ) :
    acceptedMessages cfg key s tx = [] ∧
        channelField Channel.nextInboxNonce (preparedState cfg s tx).channels key =
          channelField Channel.nextInboxNonce s.channels key ∨
      acceptedMessages cfg key s tx = [channelField Channel.nextInboxNonce s.channels key] ∧
        channelField Channel.nextInboxNonce (preparedState cfg s tx).channels key =
          channelField Channel.nextInboxNonce s.channels key + 1 := by
  rcases tx with ((_ | _ | xdm | xdm | _ | _) | _ | _)
  case call.relayMessage =>
    simp only [acceptedMessages, preparedState]
    cases prepared : Messenger.validateAndPrepare cfg s (.relayMessage xdm) with
    | error _ => exact .inl ⟨rfl, rfl⟩
    | ok s₁ =>
      obtain ⟨atNext, moved⟩ := books.preparedRelayMessage_nextInboxNonce sound prepared
      dsimp only
      rw [moved]
      -- only the message's own channel moves
      by_cases same : (xdm.srcChainId, xdm.channelId) = key
      · subst same
        exact .inr ⟨by rw [if_pos rfl, ← atNext], by rw [update_self, ← atNext]⟩
      · exact .inl ⟨if_neg same, update_of_ne (Ne.symm same) _ _⟩
  case call.relayMessageResponse =>
    simp only [preparedState]
    cases prepared : Messenger.validateAndPrepare cfg s (.relayMessageResponse xdm) with
    | error _ => exact .inl ⟨rfl, rfl⟩
    | ok s₁ => exact .inl ⟨rfl, by rw [preparedRelayMessageResponse_nextInboxNonce sound prepared]⟩
  all_goals exact .inl ⟨rfl, rfl⟩

/-- The relayed response accepted at a channel, if any, is at its first
unanswered nonce, which moves past it. -/
theorem Bookkept.acceptedResponses_numbers (books : Bookkept cfg s) {tx : Transaction A}
    (sound : tx.isSound = true) (key : ChainId × ℕ) :
    acceptedResponses cfg key s tx = [] ∧
        channelField Channel.firstUnanswered (preparedState cfg s tx).channels key =
          channelField Channel.firstUnanswered s.channels key ∨
      acceptedResponses cfg key s tx = [channelField Channel.firstUnanswered s.channels key] ∧
        channelField Channel.firstUnanswered (preparedState cfg s tx).channels key =
          channelField Channel.firstUnanswered s.channels key + 1 := by
  rcases tx with ((_ | _ | xdm | xdm | _ | _) | _ | _)
  case call.relayMessageResponse =>
    simp only [acceptedResponses, preparedState]
    cases prepared : Messenger.validateAndPrepare cfg s (.relayMessageResponse xdm) with
    | error _ => exact .inl ⟨rfl, rfl⟩
    | ok s₁ =>
      obtain ⟨atFirst, moved⟩ := preparedRelayMessageResponse_firstUnanswered sound prepared
      dsimp only
      rw [moved]
      by_cases same : (xdm.srcChainId, xdm.channelId) = key
      · subst same
        exact .inr ⟨by rw [if_pos rfl, ← atFirst], by rw [update_self, ← atFirst]⟩
      · exact .inl ⟨if_neg same, update_of_ne (Ne.symm same) _ _⟩
  case call.relayMessage =>
    simp only [preparedState]
    cases prepared : Messenger.validateAndPrepare cfg s (.relayMessage xdm) with
    | error _ => exact .inl ⟨rfl, rfl⟩
    | ok s₁ => exact .inl ⟨rfl, by rw [books.preparedRelayMessage_firstUnanswered sound prepared]⟩
  all_goals exact .inl ⟨rfl, rfl⟩

/-- The relayed messages from `key` that a run accepts, in order. -/
def runAcceptedMessages [DecidableEq A] (cfg : Config) (key : ChainId × ℕ) (s : State A) (txs : List (Env A × Transaction A)) :
    List ℕ :=
  Lib.accepted (runStep cfg) (fun s tx => acceptedMessages cfg key s tx.2) s txs

/-- The relayed responses from `key` that a run accepts, in order. -/
def runAcceptedResponses [DecidableEq A] (cfg : Config) (key : ChainId × ℕ) (s : State A) (txs : List (Env A × Transaction A)) :
    List ℕ :=
  Lib.accepted (runStep cfg) (fun s tx => acceptedResponses cfg key s tx.2) s txs

theorem reachable_runStep [DecidableEq A] (s : State A) (tx : Env A × Transaction A) (reachable : Reachable cfg s)
    (sound : tx.2.isSound = true) : Reachable cfg (runStep cfg s tx) :=
  .step tx.1 tx.2 sound reachable

/-- Over any run of sound transactions from a reachable state, the relayed
messages a channel accepts are those at the nonces its next inbox nonce moves
over, each once and in order. -/
theorem acceptedMessages_eq_range' [DecidableEq A] (reachable : Reachable cfg s)
    (txs : List (Env A × Transaction A)) (sound : ∀ tx ∈ txs, tx.2.isSound = true) (key : ChainId × ℕ) :
    runAcceptedMessages cfg key s txs =
      List.range' (channelField Channel.nextInboxNonce s.channels key)
        (channelField Channel.nextInboxNonce (run cfg s txs).channels key -
          channelField Channel.nextInboxNonce s.channels key) :=
  Lib.accepted_eq_range' (Reachable cfg) (fun tx => tx.2.isSound = true) reachable_runStep
    (fun _ _ reachable sound => numbers_of_prepared (reachable.bookkept.acceptedMessages_numbers sound key)
      (preparedField_nextInboxNonce.step reachable.bookkept sound))
    txs s reachable sound

/-- Domain `0` opens channel `0` and sends a request on it; the opening is
relayed twice, and a request three nonces on is relayed too early. -/
def relayedRun : List (Env ℕ × Transaction ℕ) :=
  [(relayEnv true, .call (.relayMessage openRequest)), (relayEnv true, .call (.relayMessage openRequest)),
   (relayEnv true, .call (.relayMessage (endpointRequest 1))),
   (relayEnv true, .call (.relayMessage (endpointRequest 3)))]

theorem acceptedMessages_eq_range'_relayed_twice :
    runAcceptedMessages relayConfig (.domain 0, 0) (State.genesis {.domain 0}) relayedRun = [0, 1] ∧
      runAcceptedMessages relayConfig (.domain 0, 0) (State.genesis {.domain 0}) relayedRun =
        List.range' (channelField Channel.nextInboxNonce (State.genesis {.domain 0} : State ℕ).channels (.domain 0, 0))
          (channelField Channel.nextInboxNonce (run relayConfig (State.genesis {.domain 0}) relayedRun).channels
              (.domain 0, 0) -
            channelField Channel.nextInboxNonce (State.genesis {.domain 0} : State ℕ).channels (.domain 0, 0)) :=
  ⟨by decide, acceptedMessages_eq_range' (.genesis _) relayedRun (by decide) _⟩

/-- Over any run of sound transactions from a reachable state, the relayed
responses a channel accepts are those at the nonces its first unanswered
nonce moves over, each once and in order. -/
theorem acceptedResponses_eq_range' [DecidableEq A] (reachable : Reachable cfg s)
    (txs : List (Env A × Transaction A)) (sound : ∀ tx ∈ txs, tx.2.isSound = true) (key : ChainId × ℕ) :
    runAcceptedResponses cfg key s txs =
      List.range' (channelField Channel.firstUnanswered s.channels key)
        (channelField Channel.firstUnanswered (run cfg s txs).channels key -
          channelField Channel.firstUnanswered s.channels key) :=
  Lib.accepted_eq_range' (Reachable cfg) (fun tx => tx.2.isSound = true) reachable_runStep
    (fun _ _ reachable sound => numbers_of_prepared (reachable.bookkept.acceptedResponses_numbers sound key)
      (preparedField_firstUnanswered.step reachable.bookkept sound))
    txs s reachable sound

/-- This chain opens channel `0` to domain `0`, whose acceptance is relayed
back twice. -/
def answeredRun : List (Env ℕ × Transaction ℕ) :=
  [(relayEnv true, .call (.initiateChannel 0 (.domain 0))), (relayEnv true, .call (.relayMessageResponse (openResponse 0))),
   (relayEnv true, .call (.relayMessageResponse (openResponse 0)))]

theorem acceptedResponses_eq_range'_answered_twice :
    runAcceptedResponses relayConfig (.domain 0, 0) (State.genesis {.domain 0}) answeredRun = [0] ∧
      runAcceptedResponses relayConfig (.domain 0, 0) (State.genesis {.domain 0}) answeredRun =
        List.range' (channelField Channel.firstUnanswered (State.genesis {.domain 0} : State ℕ).channels (.domain 0, 0))
          (channelField Channel.firstUnanswered (run relayConfig (State.genesis {.domain 0}) answeredRun).channels
              (.domain 0, 0) -
            channelField Channel.firstUnanswered (State.genesis {.domain 0} : State ℕ).channels (.domain 0, 0)) :=
  ⟨by decide, acceptedResponses_eq_range' (.genesis _) answeredRun (by decide) _⟩

end Subspace.Messenger
