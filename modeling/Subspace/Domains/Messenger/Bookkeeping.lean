import Subspace.Domains.Messenger.Pallet
import Subspace.Domains.Messenger.Books

/-!
# The messenger pallet keeps its books

`Bookkept` is the consistency of the pallet's storage: the channel ids, the
books of the outbox and of the inbox responses (`Books.lean`), and the fees on
hold, each total the sum of the fees it holds. Every function of the pallet
acts on the books through their operations, so every transaction keeps them,
and they hold in every reachable state (`Reachable.bookkept`).

Each function has an inversion lemma, `f_eq_ok`, saying what a success wrote,
and a lemma `Bookkept.f` that it keeps the books; the transaction lemmas cite
these and never unfold the functions.

The relayed messages and responses keep the books because their nonces are
disciplined: `validate` and `prepare` accept a message exactly at the next
nonce of its channel, and that is where its dispatch stores the response.
-/

namespace Subspace.Messenger

open Function

variable {A : Type}

/-- The storage of the pallet is consistent. -/
structure Bookkept (cfg : Config) (s : State A) : Prop where
  channelIds : ChannelIds s.channels s.nextChannelId
  outbox : OutboxBooks cfg.selfChainId s.outbox s.outboxMessageWeightTags s.outboxMessageCount s.outboxFee.keys
    (channelField Channel.nextOutboxNonce s.channels) (channelField Channel.firstUnanswered s.channels)
    (channelField Channel.maxOutgoing s.channels)
  inbox : InboxBooks cfg.selfChainId s.inboxResponses s.inboxResponseMessageWeightTags s.inboxFee.keys
    (channelField Channel.nextInboxNonce s.channels)
  inboxFeesOnHold : s.inboxFeesOnHold = ∑ key ∈ s.inboxFee.keys, s.inboxFee.val key
  outboxFeesOnHold : s.outboxFeesOnHold = ∑ key ∈ s.outboxFee.keys, s.outboxFee.val key

variable {cfg : Config} {env : Env A} {s s' : State A}

theorem bookkept_genesis (chainAllowlist : Finset ChainId) : Bookkept cfg (State.genesis chainAllowlist : State A) where
  channelIds := ChannelIds.channelIds_genesis
  outbox := OutboxBooks.outboxBooks_genesis
  inbox := InboxBooks.inboxBooks_genesis
  inboxFeesOnHold := rfl
  outboxFeesOnHold := rfl

/-- Rewriting a channel with the same nonces and room keeps the books. -/
theorem Bookkept.writeChannel (books : Bookkept cfg s) {key : ChainId × ℕ} {old : Channel A}
    (present : s.channels key = some old) (channel : Channel A)
    (sameInbox : channel.nextInboxNonce = old.nextInboxNonce)
    (sameOutbox : channel.nextOutboxNonce = old.nextOutboxNonce)
    (sameLatest : channel.latestResponseReceivedMessageNonce = old.latestResponseReceivedMessageNonce)
    (sameRoom : channel.maxOutgoingMessages = old.maxOutgoingMessages) :
    Bookkept cfg { s with channels := update s.channels key (some channel) } := by
  have first : channel.firstUnanswered = old.firstUnanswered := by
    simp [Channel.firstUnanswered, sameLatest]
  have room : channel.maxOutgoing = old.maxOutgoing := by
    simp [Channel.maxOutgoing, sameRoom]
  refine ⟨books.channelIds.write present channel, ?_, ?_, books.inboxFeesOnHold, books.outboxFeesOnHold⟩
  · dsimp only
    rw [channelField_update_of_eq _ present _ sameOutbox, channelField_update_of_eq _ present _ first,
      channelField_update_of_eq _ present _ room]
    exact books.outbox
  · dsimp only
    rw [channelField_update_of_eq _ present _ sameInbox]
    exact books.inbox

/-! ## Channels -/

theorem doOpenChannel_eq_ok {chainId : ChainId} {channelId : ℕ} (opened : doOpenChannel s chainId channelId = .ok s') :
    ∃ channel, s.channels (chainId, channelId) = some channel ∧ channel.state = .initiated ∧
      s' = { s with channels := update s.channels (chainId, channelId) (some { channel with state := .open }) } := by
  simp only [doOpenChannel, Except.bind_eq_ok, Option.okOr_eq_ok, ensure_eq_ok, Except.pure_eq_ok] at opened
  obtain ⟨channel, found, _, initiated, rfl⟩ := opened
  exact ⟨channel, found, initiated, rfl⟩

theorem doCloseChannel_eq_ok [DecidableEq A] {chainId : ChainId} {channelId : ℕ} {closeChannelBy : CloseChannelBy A}
    (closed : doCloseChannel env s chainId channelId closeChannelBy = .ok s') :
    ∃ channel, s.channels (chainId, channelId) = some channel ∧ channel.state ≠ .closed ∧
      s' = { s with channels := update s.channels (chainId, channelId) (some { channel with state := .closed }) } := by
  simp only [doCloseChannel, Except.bind_eq_ok, Option.okOr_eq_ok, ensure_eq_ok, Except.pure_eq_ok] at closed
  obtain ⟨channel, found, _, notClosed, _, _, _, _, rfl⟩ := closed
  exact ⟨channel, found, notClosed, rfl⟩

theorem Bookkept.doOpenChannel (books : Bookkept cfg s) {chainId : ChainId} {channelId : ℕ}
    (opened : doOpenChannel s chainId channelId = .ok s') : Bookkept cfg s' := by
  obtain ⟨channel, found, _, rfl⟩ := doOpenChannel_eq_ok opened
  exact books.writeChannel found _ rfl rfl rfl rfl

theorem Bookkept.doCloseChannel [DecidableEq A] (books : Bookkept cfg s) {chainId : ChainId} {channelId : ℕ}
    {closeChannelBy : CloseChannelBy A} (closed : doCloseChannel env s chainId channelId closeChannelBy = .ok s') :
    Bookkept cfg s' := by
  obtain ⟨channel, found, _, rfl⟩ := doCloseChannel_eq_ok closed
  exact books.writeChannel found _ rfl rfl rfl rfl

/-- The channel `do_init_channel` stores. -/
def initialChannel (channelId : ℕ) (initParams : ChannelOpenParamsV1) (maybeOwner : Option A)
    (channelReserveFee : ℕ) : Channel A :=
  { channelId
    state := .initiated
    nextInboxNonce := 0
    nextOutboxNonce := 0
    latestResponseReceivedMessageNonce := none
    maxOutgoingMessages := initParams.maxOutgoingMessages
    maybeOwner
    channelReserveFee }

theorem doInitChannel_eq_ok {dstChainId : ChainId} {initParams : ChannelOpenParamsV1} {maybeOwner : Option A}
    {checkAllowlist : Bool} {channelReserveFee channelId : ℕ}
    (initiated : doInitChannel cfg s dstChainId initParams maybeOwner checkAllowlist channelReserveFee =
      .ok (channelId, s')) :
    cfg.selfChainId ≠ dstChainId ∧ 1 ≤ initParams.maxOutgoingMessages ∧ channelId = s.nextChannelId dstChainId ∧
      s' = { s with
        channels := update s.channels (dstChainId, channelId)
          (some (initialChannel channelId initParams maybeOwner channelReserveFee))
        nextChannelId := update s.nextChannelId dstChainId (channelId + 1) } := by
  simp only [doInitChannel, Except.bind_eq_ok, Option.okOr_eq_ok, ensure_eq_ok, Except.pure_eq_ok,
    checkedAddOne_eq_some, Prod.mk.injEq] at initiated
  obtain ⟨_, distinct, _, enough, _, _, _, _, next, ⟨_, rfl⟩, rfl, rfl⟩ := initiated
  exact ⟨distinct, enough, rfl, rfl⟩

/-- A new channel takes the next id of its chain, where there is no channel
yet and so no message either. -/
theorem Bookkept.doInitChannel (books : Bookkept cfg s) {dstChainId : ChainId} {initParams : ChannelOpenParamsV1}
    {maybeOwner : Option A} {checkAllowlist : Bool} {channelReserveFee channelId : ℕ}
    (initiated : doInitChannel cfg s dstChainId initParams maybeOwner checkAllowlist channelReserveFee =
      .ok (channelId, s')) : Bookkept cfg s' := by
  obtain ⟨_, _, rfl, rfl⟩ := doInitChannel_eq_ok initiated
  have missing : s.channels (dstChainId, s.nextChannelId dstChainId) = none := by
    simpa using (books.channelIds dstChainId (s.nextChannelId dstChainId)).not.mpr (lt_irrefl _)
  -- the new channel's nonces are the `0` read where there was no channel
  refine ⟨books.channelIds.init dstChainId _, ?_, ?_, books.inboxFeesOnHold, books.outboxFeesOnHold⟩
  · dsimp only
    rw [books.channelIds.channelField_init _ Channel.nextOutboxNonce rfl,
      books.channelIds.channelField_init _ Channel.firstUnanswered rfl]
    refine books.outbox.widen fun key => ?_
    by_cases same : key = (dstChainId, s.nextChannelId dstChainId)
    · simp [same, channelField, missing]
    · simp [channelField, same]
  · dsimp only
    rw [books.channelIds.channelField_init _ Channel.nextInboxNonce rfl]
    exact books.inbox

/-! ## Sending -/

/-- The message `new_outbox_message` stores. -/
def outboxMessage (srcChainId dstChainId : ChainId) (channelId nonce : ℕ) (payload : PayloadV1)
    (channel : Channel A) : Message :=
  { srcChainId, dstChainId, channelId, nonce, payload
    lastDeliveredMessageResponseNonce := channel.latestResponseReceivedMessageNonce }

theorem newOutboxMessage_eq_ok {srcChainId dstChainId : ChainId} {channelId nonce : ℕ} {payload : PayloadV1}
    (sent : newOutboxMessage s srcChainId dstChainId channelId payload = .ok (nonce, s')) :
    ∃ channel, s.channels (dstChainId, channelId) = some channel ∧ srcChainId ≠ dstChainId ∧
      s.outboxMessageCount (dstChainId, channelId) < channel.maxOutgoingMessages.toNat ∧
      channel.nextOutboxNonce < u256Max ∧ nonce = channel.nextOutboxNonce ∧
      s' = { s with
        outbox := update s.outbox (dstChainId, channelId, nonce)
          (some (outboxMessage srcChainId dstChainId channelId nonce payload channel))
        outboxMessageCount := update s.outboxMessageCount (dstChainId, channelId)
          (s.outboxMessageCount (dstChainId, channelId) + 1)
        channels := update s.channels (dstChainId, channelId) (some { channel with nextOutboxNonce := nonce + 1 })
        outboxMessageWeightTags := update s.outboxMessageWeightTags (dstChainId, channelId, nonce)
          (some (MessageWeightTag.outbox payload)) } := by
  simp only [newOutboxMessage, Except.bind_eq_ok, Option.okOr_eq_ok, ensure_eq_ok, Except.pure_eq_ok,
    checkedAddOne_eq_some, Prod.mk.injEq] at sent
  obtain ⟨_, distinct, channel, found, _, room, _, _, next, ⟨inRange, rfl⟩, rfl, rfl⟩ := sent
  exact ⟨channel, found, distinct, room, inRange, rfl, rfl⟩

/-- `new_outbox_message` pushes a message onto the channel's outbox. -/
theorem Bookkept.newOutboxMessage (books : Bookkept cfg s) {dstChainId : ChainId} {channelId nonce : ℕ}
    {payload : PayloadV1} (sent : newOutboxMessage s cfg.selfChainId dstChainId channelId payload = .ok (nonce, s')) :
    Bookkept cfg s' := by
  obtain ⟨channel, found, _, room, inRange, rfl, rfl⟩ := newOutboxMessage_eq_ok sent
  have next : channelField Channel.nextOutboxNonce s.channels (dstChainId, channelId) = channel.nextOutboxNonce := by
    simp [channelField, found]
  have capacity : channelField Channel.maxOutgoing s.channels (dstChainId, channelId) =
      channel.maxOutgoingMessages.toNat := by
    simp [channelField, found, Channel.maxOutgoing]
  have pushed := books.outbox.push dstChainId channelId
    (outboxMessage cfg.selfChainId dstChainId channelId channel.nextOutboxNonce payload channel)
    (MessageWeightTag.outbox payload) (by simp [outboxMessage, next]) (by rw [capacity]; exact room) (by rw [next]; exact inRange)
  rw [next] at pushed
  refine ⟨books.channelIds.write found _, ?_, ?_, books.inboxFeesOnHold, books.outboxFeesOnHold⟩
  · dsimp only
    rw [channelField_update, channelField_update_of_eq Channel.firstUnanswered found _ (by rfl),
      channelField_update_of_eq Channel.maxOutgoing found _ (by rfl)]
    exact pushed
  · dsimp only
    rw [channelField_update_of_eq Channel.nextInboxNonce found _ (by rfl)]
    exact books.inbox

/-- The fee `new_outbox_message` leaves room for: no fee is held at the nonce
it used. -/
theorem newOutboxMessage_fee_fresh (books : Bookkept cfg s) {srcChainId dstChainId : ChainId}
    {channelId nonce : ℕ} {payload : PayloadV1}
    (sent : newOutboxMessage s srcChainId dstChainId channelId payload = .ok (nonce, s')) :
    (dstChainId, channelId, nonce) ∉ s'.outboxFee.keys ∧
      nonce < channelField Channel.nextOutboxNonce s'.channels (dstChainId, channelId) := by
  obtain ⟨channel, found, _, _, _, rfl, rfl⟩ := newOutboxMessage_eq_ok sent
  refine ⟨fun held => ?_, by simp [channelField]⟩
  have := books.outbox.feesBelow dstChainId channelId _ held
  simp [channelField, found] at this

theorem storeOutboxFee_eq_ok {dstChainId : ChainId} {messageId : ℕ × ℕ} {outboxFees inboxFees : ℕ}
    (stored : storeOutboxFee env s dstChainId messageId outboxFees inboxFees = .ok s') :
    env.noteTransferOut inboxFees dstChainId = true ∧
      s' = { s with
        outboxFeesOnHold := s.outboxFeesOnHold + outboxFees
        outboxFee := s.outboxFee.insert (dstChainId, messageId) outboxFees } := by
  simp only [storeOutboxFee, Except.bind_eq_ok, ensure_eq_ok, Except.pure_eq_ok] at stored
  obtain ⟨_, noted, rfl⟩ := stored
  exact ⟨noted, rfl⟩

/-- A fee held for a message already sent, at a nonce that held none. -/
theorem Bookkept.storeOutboxFee (books : Bookkept cfg s) {dstChainId : ChainId} {channelId nonce : ℕ}
    {outboxFees inboxFees : ℕ} (fresh : (dstChainId, channelId, nonce) ∉ s.outboxFee.keys)
    (sent : nonce < channelField Channel.nextOutboxNonce s.channels (dstChainId, channelId))
    (stored : storeOutboxFee env s dstChainId (channelId, nonce) outboxFees inboxFees = .ok s') :
    Bookkept cfg s' := by
  obtain ⟨_, rfl⟩ := storeOutboxFee_eq_ok stored
  refine ⟨books.channelIds, books.outbox.insertFee sent, books.inbox, books.inboxFeesOnHold, ?_⟩
  dsimp only
  rw [BTreeMap.sum_insert_of_not_mem _ _ fresh, books.outboxFeesOnHold, Nat.add_comm]

/-! ## The calls that send -/

theorem Bookkept.initiateChannel (books : Bookkept cfg s) {owner : A} {dstChainId : ChainId}
    (initiated : initiateChannel cfg env s owner dstChainId = .ok s') : Bookkept cfg s' := by
  simp only [Messenger.initiateChannel, Except.bind_eq_ok, ensure_eq_ok, Except.pure_eq_ok] at initiated
  obtain ⟨_, _, _, _, ⟨channelId, s₁⟩, init, ⟨nonce, s₂⟩, sent, rfl⟩ := initiated
  have books₁ := books.doInitChannel init
  exact books₁.newOutboxMessage sent

theorem Bookkept.closeChannel [DecidableEq A] (books : Bookkept cfg s) {closeChannelBy : CloseChannelBy A} {chainId : ChainId}
    {channelId : ℕ} (closed : closeChannel cfg env s closeChannelBy chainId channelId = .ok s') :
    Bookkept cfg s' := by
  simp only [Messenger.closeChannel, Except.bind_eq_ok, Except.pure_eq_ok] at closed
  obtain ⟨s₁, closedHere, ⟨nonce, s₂⟩, sent, rfl⟩ := closed
  exact (books.doCloseChannel closedHere).newOutboxMessage sent

theorem Bookkept.sendMessage (books : Bookkept cfg s) {sender : A} {dstChainId : ChainId} {req : EndpointRequest}
    {messageId : ℕ × ℕ} (sentMessage : sendMessage cfg env s sender dstChainId req = .ok (messageId, s')) :
    Bookkept cfg s' := by
  simp only [Messenger.sendMessage, Except.bind_eq_ok, ensure_eq_ok, Option.okOr_eq_ok, Except.pure_eq_ok,
    Prod.mk.injEq] at sentMessage
  obtain ⟨_, _, channelId, _, collectedFee, _, ⟨nonce, s₁⟩, sent, s₂, stored, _, rfl⟩ := sentMessage
  have books₁ := books.newOutboxMessage sent
  obtain ⟨fresh, below⟩ := newOutboxMessage_fee_fresh books sent
  exact books₁.storeOutboxFee fresh below stored

theorem Bookkept.updateConsensusChainAllowlist (books : Bookkept cfg s) {update : ChainAllowlistUpdate}
    (updated : updateConsensusChainAllowlist cfg env s update = .ok s') : Bookkept cfg s' := by
  simp only [Messenger.updateConsensusChainAllowlist, Except.bind_eq_ok, ensure_eq_ok, Except.pure_eq_ok] at updated
  obtain ⟨_, _, _, _, _, _, rfl⟩ := updated
  exact ⟨books.channelIds, books.outbox, books.inbox, books.inboxFeesOnHold, books.outboxFeesOnHold⟩

theorem Bookkept.updateDomainAllowlist (books : Bookkept cfg s) {updates : DomainAllowlistUpdates}
    (updated : updateDomainAllowlist cfg s updates = .ok s') : Bookkept cfg s' := by
  simp only [Messenger.updateDomainAllowlist, Except.bind_eq_ok, ensure_eq_ok, Except.pure_eq_ok] at updated
  obtain ⟨_, _, rfl⟩ := updated
  exact ⟨books.channelIds, books.outbox, books.inbox, books.inboxFeesOnHold, books.outboxFeesOnHold⟩

theorem Bookkept.onInitialize (books : Bookkept cfg s) : Bookkept cfg (onInitialize s) :=
  ⟨books.channelIds, books.outbox, books.inbox, books.inboxFeesOnHold, books.outboxFeesOnHold⟩

/-! ## Receiving: the inbox fee and the reward loop -/

/-- The books read nothing of the message stored for the call. -/
theorem Bookkept.setInbox (books : Bookkept cfg s) (inbox : Option Message) :
    Bookkept cfg { s with inbox } :=
  ⟨books.channelIds, books.outbox, books.inbox, books.inboxFeesOnHold, books.outboxFeesOnHold⟩

/-- The books read nothing of the response stored for the call. -/
theorem Bookkept.setOutboxResponses (books : Bookkept cfg s) (outboxResponses : Option Message) :
    Bookkept cfg { s with outboxResponses } :=
  ⟨books.channelIds, books.outbox, books.inbox, books.inboxFeesOnHold, books.outboxFeesOnHold⟩

/-- The books read nothing of the channels updated in the block. -/
theorem Bookkept.setUpdatedChannels (books : Bookkept cfg s) (updatedChannels : Finset (ChainId × ℕ)) :
    Bookkept cfg { s with updatedChannels } :=
  ⟨books.channelIds, books.outbox, books.inbox, books.inboxFeesOnHold, books.outboxFeesOnHold⟩

theorem storeInboxFee_eq_ok {srcChainId : ChainId} {messageId : ℕ × ℕ} {inboxFees : ℕ}
    (stored : storeInboxFee env s srcChainId messageId inboxFees = .ok s') :
    env.noteTransferIn inboxFees srcChainId = true ∧
      s' = { s with
        inboxFeesOnHold := s.inboxFeesOnHold + inboxFees
        inboxFee := s.inboxFee.insert (srcChainId, messageId) inboxFees } := by
  simp only [storeInboxFee, Except.bind_eq_ok, ensure_eq_ok, Except.pure_eq_ok] at stored
  obtain ⟨_, noted, rfl⟩ := stored
  exact ⟨noted, rfl⟩

/-- A fee held for a stored response, at a key that held none. -/
theorem Bookkept.holdInboxFee (books : Bookkept cfg s) {key : ChainId × ℕ × ℕ}
    (stored : (s.inboxResponses key).isSome) (fresh : key ∉ s.inboxFee.keys) (fee : ℕ) :
    Bookkept cfg { s with
      inboxFeesOnHold := s.inboxFeesOnHold + fee
      inboxFee := s.inboxFee.insert key fee } := by
  refine ⟨books.channelIds, books.outbox, books.inbox.holdFee stored, ?_, books.outboxFeesOnHold⟩
  dsimp only
  rw [BTreeMap.sum_insert_of_not_mem _ _ fresh, books.inboxFeesOnHold, Nat.add_comm]

/-- The inbox books while the reward loop runs: the fees it has taken off the
map are still on hold. -/
structure InboxKept (cfg : Config) (s : State A) (taken : ℕ) : Prop where
  inbox : InboxBooks cfg.selfChainId s.inboxResponses s.inboxResponseMessageWeightTags s.inboxFee.keys
    (channelField Channel.nextInboxNonce s.channels)
  onHold : s.inboxFeesOnHold = ∑ key ∈ s.inboxFee.keys, s.inboxFee.val key + taken

/-- What the reward loop writes: the responses, their tags and their fees. -/
def TakesResponses (s s₁ : State A) : Prop :=
  ∃ responses tags fees, s₁ = { s with
    inboxResponses := responses
    inboxResponseMessageWeightTags := tags
    inboxFee := fees }

theorem TakesResponses.refl (s : State A) : TakesResponses s s :=
  ⟨_, _, _, rfl⟩

theorem TakesResponses.trans {s₁ s₂ : State A} (first : TakesResponses s s₁) (second : TakesResponses s₁ s₂) :
    TakesResponses s s₂ := by
  obtain ⟨_, _, _, rfl⟩ := first
  obtain ⟨responses, tags, fees, rfl⟩ := second
  exact ⟨responses, tags, fees, rfl⟩

theorem takeInboxResponse_eq_some {dstChainId : ChainId} {channelId nonce : ℕ} {acc acc' : State A × ℕ}
    (taken : takeInboxResponse dstChainId channelId nonce acc = some acc') :
    ∃ fee, acc' = ({ acc.1 with
        inboxResponses := update acc.1.inboxResponses (dstChainId, channelId, nonce) none
        inboxResponseMessageWeightTags := update acc.1.inboxResponseMessageWeightTags (dstChainId, channelId, nonce) none
        inboxFee := acc.1.inboxFee.remove (dstChainId, channelId, nonce) }, acc.2 + fee) ∧
      ∑ key ∈ acc.1.inboxFee.keys, acc.1.inboxFee.val key =
        ∑ key ∈ (acc.1.inboxFee.remove (dstChainId, channelId, nonce)).keys,
          (acc.1.inboxFee.remove (dstChainId, channelId, nonce)).val key + fee := by
  unfold takeInboxResponse at taken
  dsimp only at taken
  split at taken
  · cases taken
  · split at taken
    · -- the response had a fee: it is taken with it
      rename_i fee held
      obtain ⟨present, value⟩ := BTreeMap.get?_eq_some.mp held
      cases taken
      refine ⟨fee, rfl, ?_⟩
      rw [← BTreeMap.sum_remove_add _ present, value]
    · -- no fee: the map stays as it is
      rename_i absent
      cases taken
      have unchanged := BTreeMap.remove_of_not_mem acc.1.inboxFee (BTreeMap.get?_eq_none.mp absent)
      exact ⟨0, by rw [unchanged, Nat.add_zero], by rw [unchanged, Nat.add_zero]⟩

/-- One iteration of the reward loop keeps the books, and the fee it takes
moves from the map to the fees taken. -/
theorem InboxKept.takeInboxResponse {acc acc' : State A × ℕ} (kept : InboxKept cfg acc.1 acc.2)
    {dstChainId : ChainId} {channelId nonce : ℕ}
    (taken : takeInboxResponse dstChainId channelId nonce acc = some acc') : InboxKept cfg acc'.1 acc'.2 := by
  obtain ⟨fee, rfl, sum⟩ := takeInboxResponse_eq_some taken
  refine ⟨kept.inbox.take _, ?_⟩
  dsimp only
  rw [kept.onHold, sum, Nat.add_assoc, Nat.add_comm fee]

/-- The reward loop keeps the books, from the nonce it starts at down. -/
theorem InboxKept.takeInboxResponses (dstChainId : ChainId) (channelId : ℕ) :
    ∀ (nonce : ℕ) {acc : State A × ℕ}, InboxKept cfg acc.1 acc.2 →
      InboxKept cfg (takeInboxResponses dstChainId channelId nonce acc).1
        (takeInboxResponses dstChainId channelId nonce acc).2
  | 0, acc, kept => by
    simp only [Messenger.takeInboxResponses]
    cases taken : Messenger.takeInboxResponse dstChainId channelId 0 acc with
    | none => exact kept
    | some acc' => exact kept.takeInboxResponse taken
  | nonce + 1, acc, kept => by
    simp only [Messenger.takeInboxResponses]
    cases taken : Messenger.takeInboxResponse dstChainId channelId (nonce + 1) acc with
    | none => exact kept
    | some acc' => exact InboxKept.takeInboxResponses dstChainId channelId nonce (kept.takeInboxResponse taken)

/-- The reward loop writes only the responses, their tags and their fees. -/
theorem takeInboxResponses_takes (dstChainId : ChainId) (channelId : ℕ) :
    ∀ (nonce : ℕ) (acc : State A × ℕ), TakesResponses acc.1 (takeInboxResponses dstChainId channelId nonce acc).1
  | 0, acc => by
    simp only [Messenger.takeInboxResponses]
    cases taken : Messenger.takeInboxResponse dstChainId channelId 0 acc with
    | none => exact .refl _
    | some acc' =>
      obtain ⟨_, rfl, -⟩ := takeInboxResponse_eq_some taken
      exact ⟨_, _, _, rfl⟩
  | nonce + 1, acc => by
    simp only [Messenger.takeInboxResponses]
    cases taken : Messenger.takeInboxResponse dstChainId channelId (nonce + 1) acc with
    | none => exact .refl _
    | some acc' =>
      obtain ⟨_, rfl, -⟩ := takeInboxResponse_eq_some taken
      exact TakesResponses.trans ⟨_, _, _, rfl⟩ (takeInboxResponses_takes dstChainId channelId nonce _)

theorem rewardOperatorsForInboxExecution_eq_ok {dstChainId : ChainId} {channelId : ℕ}
    {latestConfirmedNonce : Option ℕ}
    (rewarded : rewardOperatorsForInboxExecution s dstChainId channelId latestConfirmedNonce = .ok s') :
    s' = s ∨ ∃ nonce, latestConfirmedNonce = some nonce ∧
      ((takeInboxResponses dstChainId channelId nonce (s, 0)).2 = 0 ∧
          s' = (takeInboxResponses dstChainId channelId nonce (s, 0)).1 ∨
        ∃ onHold, onHold + (takeInboxResponses dstChainId channelId nonce (s, 0)).2 =
            (takeInboxResponses dstChainId channelId nonce (s, 0)).1.inboxFeesOnHold ∧
          s' = { (takeInboxResponses dstChainId channelId nonce (s, 0)).1 with
            inboxFeesOnHold := onHold
            xdmRewards := (takeInboxResponses dstChainId channelId nonce (s, 0)).1.xdmRewards +
              (takeInboxResponses dstChainId channelId nonce (s, 0)).2 }) := by
  unfold rewardOperatorsForInboxExecution at rewarded
  cases latestConfirmedNonce with
  | none => exact .inl (Except.pure_eq_ok.mp rewarded).symm
  | some nonce =>
    refine .inr ⟨nonce, rfl, ?_⟩
    dsimp only at rewarded
    split at rewarded
    · exact .inl ⟨‹_›, (Except.pure_eq_ok.mp rewarded).symm⟩
    · simp only [Except.bind_eq_ok, Option.okOr_eq_ok, Nat.psub_eq_some, Except.pure_eq_ok] at rewarded
      obtain ⟨onHold, taken, rfl⟩ := rewarded
      exact .inr ⟨onHold, taken, rfl⟩

/-- The rewards leave the channels as they are. -/
theorem rewardOperatorsForInboxExecution_channels {dstChainId : ChainId} {channelId : ℕ}
    {latestConfirmedNonce : Option ℕ}
    (rewarded : rewardOperatorsForInboxExecution s dstChainId channelId latestConfirmedNonce = .ok s') :
    s'.channels = s.channels := by
  rcases rewardOperatorsForInboxExecution_eq_ok rewarded with rfl | ⟨nonce, -, ⟨-, rfl⟩ | ⟨-, -, rfl⟩⟩
  · rfl
  all_goals
    obtain ⟨_, _, _, same⟩ := takeInboxResponses_takes dstChainId channelId nonce (s, 0)
    rw [same]

/-- The reward loop keeps the books: it takes each fee off the map and off
the total on hold. -/
theorem Bookkept.rewardOperatorsForInboxExecution (books : Bookkept cfg s) {dstChainId : ChainId}
    {channelId : ℕ} {latestConfirmedNonce : Option ℕ}
    (rewarded : rewardOperatorsForInboxExecution s dstChainId channelId latestConfirmedNonce = .ok s') :
    Bookkept cfg s' := by
  rcases rewardOperatorsForInboxExecution_eq_ok rewarded with rfl | ⟨nonce, -, taken⟩
  · exact books
  · have start : InboxKept cfg (s, 0).1 (s, 0).2 := ⟨books.inbox, books.inboxFeesOnHold⟩
    have kept := InboxKept.takeInboxResponses dstChainId channelId nonce start
    have takes := takeInboxResponses_takes dstChainId channelId nonce (s, 0)
    generalize takeInboxResponses dstChainId channelId nonce (s, 0) = acc at kept takes taken
    obtain ⟨s₁, fees⟩ := acc
    obtain ⟨_, _, _, rfl⟩ := takes
    have onHold := kept.onHold
    dsimp only at taken onHold
    rcases taken with ⟨noFees, rfl⟩ | ⟨remaining, released, rfl⟩
    · exact ⟨books.channelIds, books.outbox, kept.inbox, by rw [onHold, noFees, Nat.add_zero],
        books.outboxFeesOnHold⟩
    · exact ⟨books.channelIds, books.outbox, kept.inbox, by dsimp only; omega, books.outboxFeesOnHold⟩

/-! ## Receiving: processing a message -/

/-- A write of the state of a channel, and of nothing else. -/
def ChangesState (s s₁ : State A) : Prop :=
  ∃ key old, s.channels key = some old ∧ ∃ state : ChannelState,
    s₁ = { s with channels := update s.channels key (some { old with state }) }

theorem Bookkept.changesState (books : Bookkept cfg s) {s₁ : State A} (changes : ChangesState s s₁) :
    Bookkept cfg s₁ := by
  obtain ⟨key, old, present, state, rfl⟩ := changes
  exact books.writeChannel present _ rfl rfl rfl rfl

theorem ChangesState.nextInboxNonce {s₁ : State A} (changes : ChangesState s s₁) :
    channelField Channel.nextInboxNonce s₁.channels = channelField Channel.nextInboxNonce s.channels := by
  obtain ⟨key, old, present, state, rfl⟩ := changes
  exact channelField_update_of_eq _ present _ rfl

theorem doOpenChannel_changesState {chainId : ChainId} {channelId : ℕ}
    (opened : doOpenChannel s chainId channelId = .ok s') : ChangesState s s' := by
  obtain ⟨channel, found, _, rfl⟩ := doOpenChannel_eq_ok opened
  exact ⟨_, channel, found, _, rfl⟩

theorem doCloseChannel_changesState [DecidableEq A] {chainId : ChainId} {channelId : ℕ} {closeChannelBy : CloseChannelBy A}
    (closed : doCloseChannel env s chainId channelId closeChannelBy = .ok s') : ChangesState s s' := by
  obtain ⟨channel, found, _, rfl⟩ := doCloseChannel_eq_ok closed
  exact ⟨_, channel, found, _, rfl⟩

/-- A protocol request from another chain opens or closes its channel here. -/
theorem processIncomingProtocolMessageReq_changesState [DecidableEq A] {chainId : ChainId} {channelId : ℕ}
    {req : ProtocolMessageRequest} {weightTag : MessageWeightTag}
    (processed : processIncomingProtocolMessageReq env s chainId channelId req weightTag = .ok s') :
    ChangesState s s' := by
  unfold processIncomingProtocolMessageReq at processed
  cases req with
  | channelOpen params =>
    dsimp only at processed
    split at processed
    · cases processed
    · split at processed
      · cases processed
      · exact doOpenChannel_changesState processed
  | channelClose =>
    dsimp only at processed
    split at processed
    · cases processed
    · exact doCloseChannel_changesState processed

/-- A response to a protocol request opens the channel, or changes nothing. -/
theorem processIncomingProtocolMessageResponse_eq_ok {chainId : ChainId} {channelId : ℕ}
    {req : ProtocolMessageRequest} {resp : Except DispatchError Unit} {weightTag : MessageWeightTag}
    (processed : processIncomingProtocolMessageResponse s chainId channelId req resp weightTag = .ok s') :
    s' = s ∨ ChangesState s s' := by
  unfold processIncomingProtocolMessageResponse at processed
  split at processed
  · split at processed
    · cases processed
    · exact .inr (doOpenChannel_changesState processed)
  · exact .inl (Except.pure_eq_ok.mp processed).symm

/-- Processing a message from another chain changes the state of its channel,
or holds the fee of an endpoint request under the message's key, or nothing. -/
theorem processInboxPayload_eq_ok [DecidableEq A] {msg : Message} {msgWeightTag : MessageWeightTag} {respPayload : PayloadV1}
    (processed : processInboxPayload env s msg msgWeightTag = .ok (respPayload, s')) :
    s' = s ∨ ChangesState s s' ∨
      ∃ fee, env.noteTransferIn fee msg.srcChainId = true ∧ s' = { s with
        inboxFeesOnHold := s.inboxFeesOnHold + fee
        inboxFee := s.inboxFee.insert (msg.srcChainId, msg.channelId, msg.nonce) fee } := by
  unfold processInboxPayload at processed
  split at processed
  · -- a protocol request: the channel it opens or closes, where it succeeds
    rename_i req _
    simp only [Except.pure_eq_ok, Prod.mk.injEq] at processed
    obtain ⟨_, rfl⟩ := processed
    cases result : processIncomingProtocolMessageReq env s msg.srcChainId msg.channelId req msgWeightTag with
    | error _ => exact .inl rfl
    | ok _ => exact .inr (.inl (processIncomingProtocolMessageReq_changesState result))
  · -- an endpoint request: its fee, whatever the handler answers
    simp only [Except.bind_eq_ok, Except.pure_eq_ok, Prod.mk.injEq] at processed
    obtain ⟨_, stored, _, rfl⟩ := processed
    obtain ⟨noted, rfl⟩ := storeInboxFee_eq_ok stored
    exact .inr (.inr ⟨_, noted, rfl⟩)
  · exact .inl (Prod.mk.inj (Except.pure_eq_ok.mp processed)).2.symm
  · exact .inl (Prod.mk.inj (Except.pure_eq_ok.mp processed)).2.symm

/-- The response `process_inbox_messages` stores. -/
def inboxResponse (cfg : Config) (msg : Message) (respPayload : PayloadV1) : Message :=
  { srcChainId := cfg.selfChainId
    dstChainId := msg.srcChainId
    channelId := msg.channelId
    nonce := msg.nonce
    payload := respPayload
    lastDeliveredMessageResponseNonce := none }

/-- A response stored below the next inbox nonce of its channel. -/
theorem Bookkept.putResponse (books : Bookkept cfg s) {msg : Message} (respPayload : PayloadV1)
    (tag : MessageWeightTag) (updatedChannels : Finset (ChainId × ℕ))
    (received : msg.nonce < channelField Channel.nextInboxNonce s.channels (msg.srcChainId, msg.channelId)) :
    Bookkept cfg { s with
      inboxResponses := update s.inboxResponses (msg.srcChainId, msg.channelId, msg.nonce)
        (some (inboxResponse cfg msg respPayload))
      inboxResponseMessageWeightTags :=
        update s.inboxResponseMessageWeightTags (msg.srcChainId, msg.channelId, msg.nonce) (some tag)
      updatedChannels } :=
  ⟨books.channelIds, books.outbox, books.inbox.put tag received ⟨rfl, rfl, rfl, rfl⟩, books.inboxFeesOnHold,
    books.outboxFeesOnHold⟩

/-- Processing a message below the next inbox nonce of its channel that has no
response yet, and storing its response, keeps the books. -/
theorem Bookkept.processInboxPayload [DecidableEq A] (books : Bookkept cfg s) {msg : Message}
    {msgWeightTag : MessageWeightTag} {respPayload : PayloadV1}
    (received : msg.nonce < channelField Channel.nextInboxNonce s.channels (msg.srcChainId, msg.channelId))
    (fresh : s.inboxResponses (msg.srcChainId, msg.channelId, msg.nonce) = none)
    (processed : processInboxPayload env s msg msgWeightTag = .ok (respPayload, s')) :
    Bookkept cfg { s' with
      inboxResponses := update s'.inboxResponses (msg.srcChainId, msg.channelId, msg.nonce)
        (some (inboxResponse cfg msg respPayload))
      inboxResponseMessageWeightTags := update s'.inboxResponseMessageWeightTags
        (msg.srcChainId, msg.channelId, msg.nonce) (some (.inboxResponse msgWeightTag respPayload))
      updatedChannels := insert (msg.srcChainId, msg.channelId) s'.updatedChannels } := by
  rcases processInboxPayload_eq_ok processed with rfl | changes | ⟨fee, -, rfl⟩
  · exact books.putResponse respPayload _ _ received
  · rw [← changes.nextInboxNonce] at received
    exact (books.changesState changes).putResponse respPayload _ _ received
  · -- the fee is held once the response it waits for is stored
    exact (books.putResponse respPayload (.inboxResponse msgWeightTag respPayload)
      (insert (msg.srcChainId, msg.channelId) s.updatedChannels) received).holdInboxFee (by simp)
      (books.inbox.not_mem_fees fresh) fee

/-- `process_inbox_messages` keeps the books for a message below the next
inbox nonce of its channel that has no response yet. -/
theorem Bookkept.processInboxMessages [DecidableEq A] (books : Bookkept cfg s) {msg : Message}
    {msgWeightTag : MessageWeightTag}
    (received : msg.nonce < channelField Channel.nextInboxNonce s.channels (msg.srcChainId, msg.channelId))
    (fresh : s.inboxResponses (msg.srcChainId, msg.channelId, msg.nonce) = none)
    (processed : processInboxMessages cfg env s msg msgWeightTag = .ok s') : Bookkept cfg s' := by
  simp only [Messenger.processInboxMessages, Except.bind_eq_ok] at processed
  obtain ⟨⟨respPayload, s₁⟩, payloadProcessed, rewarded⟩ := processed
  exact (books.processInboxPayload received fresh payloadProcessed).rewardOperatorsForInboxExecution rewarded

/-- What `prepare` leaves for `relay_message`: a message below the next inbox
nonce of its channel, with no response yet. -/
def InboxPrepared (s : State A) : Prop :=
  ∃ msg, s.inbox = some msg ∧
    msg.nonce < channelField Channel.nextInboxNonce s.channels (msg.srcChainId, msg.channelId) ∧
    s.inboxResponses (msg.srcChainId, msg.channelId, msg.nonce) = none

theorem Bookkept.relayMessage [DecidableEq A] (books : Bookkept cfg s) (prepared : InboxPrepared s) {xdm : CrossDomainMessage}
    (relayed : relayMessage cfg env s xdm = .ok s') : Bookkept cfg s' := by
  obtain ⟨msg, stored, received, fresh⟩ := prepared
  simp only [Messenger.relayMessage, Except.bind_eq_ok, Option.okOr_eq_ok, stored, Option.some.injEq] at relayed
  obtain ⟨_, rfl, processed⟩ := relayed
  exact (books.setInbox none).processInboxMessages received fresh processed

/-! ## Receiving: a response -/

theorem rewardOperatorsForOutboxExecution_eq_ok {dstChainId : ChainId} {messageId : ℕ × ℕ}
    (rewarded : rewardOperatorsForOutboxExecution s dstChainId messageId = .ok s') :
    s' = s ∨ ∃ fee remaining, s.outboxFee.get? (dstChainId, messageId) = some fee ∧
      remaining + fee = s.outboxFeesOnHold ∧
      s' = { s with
        outboxFee := s.outboxFee.remove (dstChainId, messageId)
        outboxFeesOnHold := remaining
        xdmRewards := s.xdmRewards + fee } := by
  unfold rewardOperatorsForOutboxExecution at rewarded
  split at rewarded
  · exact .inl (Except.pure_eq_ok.mp rewarded).symm
  · rename_i fee held
    simp only [Except.bind_eq_ok, Option.okOr_eq_ok, Nat.psub_eq_some, Except.pure_eq_ok] at rewarded
    obtain ⟨remaining, released, rfl⟩ := rewarded
    exact .inr ⟨fee, remaining, held, released, rfl⟩

/-- Releasing the fee of a request takes it off the map and off the total on hold. -/
theorem Bookkept.rewardOperatorsForOutboxExecution (books : Bookkept cfg s) {dstChainId : ChainId}
    {messageId : ℕ × ℕ} (rewarded : rewardOperatorsForOutboxExecution s dstChainId messageId = .ok s') :
    Bookkept cfg s' := by
  rcases rewardOperatorsForOutboxExecution_eq_ok rewarded with rfl | ⟨fee, remaining, held, released, rfl⟩
  · exact books
  · obtain ⟨present, value⟩ := BTreeMap.get?_eq_some.mp held
    have sum := BTreeMap.sum_remove_add s.outboxFee present
    rw [value] at sum
    refine ⟨books.channelIds, books.outbox.subsetFees (Finset.erase_subset _ _), books.inbox,
      books.inboxFeesOnHold, ?_⟩
    dsimp only
    have := books.outboxFeesOnHold
    omega

/-- The outcome of a response changes the state of its channel, or releases
the fee of its request, or changes nothing. -/
theorem processOutboxPayload_eq_ok {dstChainId : ChainId} {channelId nonce : ℕ}
    {reqPayload respPayload : PayloadV1} {respMsgWeightTag : MessageWeightTag} {resp : Except DispatchError Unit}
    (processed : processOutboxPayload env s dstChainId channelId nonce reqPayload respPayload respMsgWeightTag =
      .ok (resp, s')) :
    s' = s ∨ ChangesState s s' ∨ rewardOperatorsForOutboxExecution s dstChainId (channelId, nonce) = .ok s' := by
  unfold processOutboxPayload at processed
  split at processed
  · rename_i req resp'
    simp only [Except.pure_eq_ok, Prod.mk.injEq] at processed
    obtain ⟨_, rfl⟩ := processed
    cases result : processIncomingProtocolMessageResponse s dstChainId channelId req resp' respMsgWeightTag with
    | error _ => exact .inl rfl
    | ok _ =>
      rcases processIncomingProtocolMessageResponse_eq_ok result with same | changes
      · exact .inl same
      · exact .inr (.inl changes)
  · simp only [Except.bind_eq_ok] at processed
    obtain ⟨s₁, rewarded, answered⟩ := processed
    split at answered <;>
    · obtain ⟨_, rfl⟩ := Prod.mk.inj (Except.pure_eq_ok.mp answered)
      exact .inr (.inr rewarded)
  · exact .inl (Prod.mk.inj (Except.pure_eq_ok.mp processed)).2.symm

/-- `process_outbox_message_responses` keeps the books for a response to a
request whose response is due. -/
theorem Bookkept.processOutboxMessageResponses (books : Bookkept cfg s) {respMsg : Message}
    {respMsgWeightTag : MessageWeightTag} {resp : Except DispatchError Unit}
    (answered : respMsg.nonce < channelField Channel.firstUnanswered s.channels (respMsg.srcChainId, respMsg.channelId))
    (processed : processOutboxMessageResponses env s respMsg respMsgWeightTag = .ok (s', resp)) :
    Bookkept cfg s' := by
  simp only [Messenger.processOutboxMessageResponses, Except.bind_eq_ok, Option.okOr_eq_ok, Nat.psub_eq_some,
    Except.pure_eq_ok, Prod.mk.injEq] at processed
  obtain ⟨reqMsg, found, count, counted, ⟨resp', s₁⟩, payloadProcessed, rfl, -⟩ := processed
  have lower : count = s.outboxMessageCount (respMsg.srcChainId, respMsg.channelId) - 1 := by omega
  subst lower
  -- the request is taken out of the outbox and counted once less
  have taken : Bookkept cfg { s with
      outbox := update s.outbox (respMsg.srcChainId, respMsg.channelId, respMsg.nonce) none
      outboxMessageCount := update s.outboxMessageCount (respMsg.srcChainId, respMsg.channelId)
        (s.outboxMessageCount (respMsg.srcChainId, respMsg.channelId) - 1)
      outboxMessageWeightTags :=
        update s.outboxMessageWeightTags (respMsg.srcChainId, respMsg.channelId, respMsg.nonce) none } :=
    ⟨books.channelIds, books.outbox.take (by simp [found]) answered, books.inbox, books.inboxFeesOnHold,
      books.outboxFeesOnHold⟩
  refine Bookkept.setUpdatedChannels ?_ _
  rcases processOutboxPayload_eq_ok payloadProcessed with rfl | changes | rewarded
  · exact taken
  · exact taken.changesState changes
  · exact taken.rewardOperatorsForOutboxExecution rewarded

/-- What `prepare` leaves for `relay_message_response`: a response to a
request whose response is due. -/
def OutboxResponsePrepared (s : State A) : Prop :=
  ∃ msg, s.outboxResponses = some msg ∧
    msg.nonce < channelField Channel.firstUnanswered s.channels (msg.srcChainId, msg.channelId)

theorem Bookkept.relayMessageResponse (books : Bookkept cfg s) (prepared : OutboxResponsePrepared s)
    {xdm : CrossDomainMessage} (relayed : relayMessageResponse env s xdm = .ok s') : Bookkept cfg s' := by
  obtain ⟨msg, stored, answered⟩ := prepared
  simp only [Messenger.relayMessageResponse, Except.bind_eq_ok, Option.okOr_eq_ok, stored, Option.some.injEq,
    Except.pure_eq_ok] at relayed
  obtain ⟨_, rfl, ⟨s₁, resp⟩, processed, rfl⟩ := relayed
  exact (books.setOutboxResponses none).processOutboxMessageResponses answered processed

/-! ## Validating and preparing a relayed message -/

/-- A channel's next inbox nonce moves up. -/
theorem Bookkept.advanceInbox (books : Bookkept cfg s) {key : ChainId × ℕ} {old : Channel A}
    (present : s.channels key = some old) (nextInboxNonce : ℕ) (later : old.nextInboxNonce ≤ nextInboxNonce) :
    Bookkept cfg { s with channels := update s.channels key (some { old with nextInboxNonce }) } := by
  refine ⟨books.channelIds.write present _, ?_, ?_, books.inboxFeesOnHold, books.outboxFeesOnHold⟩
  · dsimp only
    rw [channelField_update_of_eq Channel.nextOutboxNonce present _ (by rfl),
      channelField_update_of_eq Channel.firstUnanswered present _ (by rfl),
      channelField_update_of_eq Channel.maxOutgoing present _ (by rfl)]
    exact books.outbox
  · dsimp only
    rw [channelField_update]
    refine books.inbox.advance fun key' => ?_
    by_cases same : key' = key
    · subst same
      simpa [channelField, present] using later
    · simp [same]

/-- A channel's last received response moves up. -/
theorem Bookkept.answerOutbox (books : Bookkept cfg s) {key : ChainId × ℕ} {old : Channel A}
    (present : s.channels key = some old) (latestResponseReceivedMessageNonce : Option ℕ)
    (later : old.firstUnanswered ≤ ({ old with latestResponseReceivedMessageNonce } : Channel A).firstUnanswered) :
    Bookkept cfg { s with channels := update s.channels key (some { old with latestResponseReceivedMessageNonce }) } := by
  refine ⟨books.channelIds.write present _, ?_, ?_, books.inboxFeesOnHold, books.outboxFeesOnHold⟩
  · dsimp only
    rw [channelField_update_of_eq Channel.nextOutboxNonce present _ (by rfl),
      channelField_update_of_eq Channel.maxOutgoing present _ (by rfl), channelField_update]
    refine books.outbox.answer fun key' => ?_
    by_cases same : key' = key
    · subst same
      simpa [channelField, present] using later
    · simp [same]
  · dsimp only
    rw [channelField_update_of_eq Channel.nextInboxNonce present _ (by rfl)]
    exact books.inbox

theorem CrossDomainMessage.fields_of_isSound {xdm : CrossDomainMessage} {msg : Message}
    (sound : xdm.isSound = true) (proved : xdm.proof = some msg) :
    msg.srcChainId = xdm.srcChainId ∧ msg.channelId = xdm.channelId ∧ msg.nonce = xdm.nonce := by
  simpa [CrossDomainMessage.isSound, proved, and_assoc] using sound

theorem doVerifyXdm_eq_ok {nextNonce : ℕ} {xdm : CrossDomainMessage} {msg : Message}
    (verified : doVerifyXdm s nextNonce xdm = .ok msg) :
    xdm.channelId ≤ s.nextChannelId xdm.srcChainId ∧ nextNonce ≤ xdm.nonce ∧ xdm.proof = some msg := by
  simp only [doVerifyXdm, Except.bind_eq_ok, ensure_eq_ok, Option.okOr_eq_ok] at verified
  obtain ⟨_, below, _, notBehind, proved⟩ := verified
  exact ⟨below, notBehind, proved⟩

theorem validateRelayMessage_eq_ok {xdm : CrossDomainMessage} {validated : ValidatedRelayMessage}
    (valid : validateRelayMessage s xdm = .ok validated) :
    xdm.channelId ≤ s.nextChannelId xdm.srcChainId ∧ xdm.proof = some validated.message ∧
      validated.nextNonce = channelField Channel.nextInboxNonce s.channels (xdm.srcChainId, xdm.channelId) ∧
      validated.nextNonce ≤ validated.message.nonce ∧
      validated.shouldInitChannel = (s.channels (xdm.srcChainId, xdm.channelId)).isNone ∧
      isValidCall (s.channels (xdm.srcChainId, xdm.channelId)) validated.message.payload = true := by
  simp only [validateRelayMessage, Except.bind_eq_ok, ensure_eq_ok, Except.pure_eq_ok] at valid
  obtain ⟨msg, verified, _, validCall, _, notStale, rfl⟩ := valid
  obtain ⟨below, -, proved⟩ := doVerifyXdm_eq_ok verified
  refine ⟨below, proved, ?_, notStale, rfl, validCall⟩
  cases found : s.channels (xdm.srcChainId, xdm.channelId) <;> simp [channelField, found]

theorem validateRelayMessageResponse_eq_ok {xdm : CrossDomainMessage} {validated : ValidatedRelayMessage}
    (valid : validateRelayMessageResponse s xdm = .ok validated) :
    ∃ channel, s.channels (xdm.srcChainId, xdm.channelId) = some channel ∧
      xdm.proof = some validated.message ∧ validated.nextNonce = channel.firstUnanswered ∧
      validated.nextNonce ≤ validated.message.nonce := by
  simp only [validateRelayMessageResponse, Except.bind_eq_ok, Option.okOr_eq_ok, ensure_eq_ok,
    Except.pure_eq_ok] at valid
  obtain ⟨channel, found, nextNonce, computed, msg, verified, _, notStale, rfl⟩ := valid
  obtain ⟨-, -, proved⟩ := doVerifyXdm_eq_ok verified
  refine ⟨channel, found, proved, ?_, notStale⟩
  -- the nonce after the last response received, where it does not overflow
  cases latest : channel.latestResponseReceivedMessageNonce with
  | none =>
    simp only [latest, Except.pure_eq_ok] at computed
    simp [Channel.firstUnanswered, latest, ← computed]
  | some lastNonce =>
    simp only [latest, Option.okOr_eq_ok, checkedAddOne_eq_some] at computed
    simp [Channel.firstUnanswered, latest, computed.2]

theorem preDispatchRelayMessage_eq_ok {msg : Message} {shouldInitChannel : Bool}
    (prepared : preDispatchRelayMessage cfg s msg shouldInitChannel = .ok s') :
    ∃ s₀ channel,
      (shouldInitChannel = false ∧ s₀ = s ∨
        ∃ params channelId, msg.payload = .protocol (.request (.channelOpen params)) ∧
          doInitChannel cfg s msg.srcChainId params none false 0 = .ok (channelId, s₀)) ∧
      s₀.channels (msg.srcChainId, msg.channelId) = some channel ∧ msg.nonce < u256Max ∧
      s' = { s₀ with
        channels := update s₀.channels (msg.srcChainId, msg.channelId)
          (some { channel with nextInboxNonce := msg.nonce + 1 })
        inbox := some msg } := by
  simp only [preDispatchRelayMessage, Except.bind_eq_ok, Option.okOr_eq_ok, checkedAddOne_eq_some,
    Except.pure_eq_ok] at prepared
  obtain ⟨s₀, started, channel, found, _, ⟨inRange, rfl⟩, rfl⟩ := prepared
  refine ⟨s₀, channel, ?_, found, inRange, rfl⟩
  -- the channel a channel open initiates, where there is none yet
  cases shouldInitChannel with
  | false => exact .inl ⟨rfl, (Except.pure_eq_ok.mp started).symm⟩
  | true =>
    simp only [if_true] at started
    split at started
    · rename_i params _
      split at started
      · rename_i channelId s₁ initiated
        cases Except.pure_eq_ok.mp started
        exact .inr ⟨params, channelId, ‹_›, initiated⟩
      · cases started
    · cases started

theorem preDispatchRelayMessageResponse_eq_ok {msg : Message}
    (prepared : preDispatchRelayMessageResponse s msg = .ok s') :
    ∃ channel, s.channels (msg.srcChainId, msg.channelId) = some channel ∧
      s' = { s with
        channels := update s.channels (msg.srcChainId, msg.channelId)
          (some { channel with latestResponseReceivedMessageNonce := some msg.nonce })
        outboxResponses := some msg } := by
  simp only [preDispatchRelayMessageResponse, Except.bind_eq_ok, Option.okOr_eq_ok, Except.pure_eq_ok] at prepared
  obtain ⟨channel, found, rfl⟩ := prepared
  exact ⟨channel, found, rfl⟩

/-- `validate` then `prepare` of a relayed message: the message is at the next
inbox nonce of its channel. -/
theorem validateAndPrepare_relayMessage {xdm : CrossDomainMessage}
    (prepared : validateAndPrepare cfg s (.relayMessage xdm) = .ok s') :
    ∃ validated, validateRelayMessage s xdm = .ok validated ∧ validated.message.nonce ≤ validated.nextNonce ∧
      preDispatchRelayMessage cfg s validated.message validated.shouldInitChannel = .ok s' := by
  simp only [validateAndPrepare, doValidate, doPrepare, Except.bind_eq_ok, ensure_eq_ok,
    Except.pure_eq_ok] at prepared
  obtain ⟨_, ⟨validated, valid, _, _, rfl⟩, _, notFuture, preDispatched⟩ := prepared
  exact ⟨validated, valid, notFuture, preDispatched⟩

theorem validateAndPrepare_relayMessageResponse {xdm : CrossDomainMessage}
    (prepared : validateAndPrepare cfg s (.relayMessageResponse xdm) = .ok s') :
    ∃ validated, validateRelayMessageResponse s xdm = .ok validated ∧
      validated.message.nonce ≤ validated.nextNonce ∧
      preDispatchRelayMessageResponse s validated.message = .ok s' := by
  simp only [validateAndPrepare, doValidate, doPrepare, Except.bind_eq_ok, ensure_eq_ok,
    Except.pure_eq_ok] at prepared
  obtain ⟨_, ⟨validated, valid, _, _, rfl⟩, _, notFuture, preDispatched⟩ := prepared
  exact ⟨validated, valid, notFuture, preDispatched⟩

/-- A sound relayed message that passes `validate` and `prepare` is the one at
the next inbox nonce of its channel, which moves past it. -/
theorem preparedRelayMessage_eq {xdm : CrossDomainMessage} (sound : xdm.isSound = true)
    (prepared : validateAndPrepare cfg s (.relayMessage xdm) = .ok s') :
    ∃ msg s₀ channel, xdm.proof = some msg ∧
      msg.srcChainId = xdm.srcChainId ∧ msg.channelId = xdm.channelId ∧ msg.nonce = xdm.nonce ∧
      xdm.nonce = channelField Channel.nextInboxNonce s.channels (xdm.srcChainId, xdm.channelId) ∧
      (s₀ = s ∨ ∃ params channelId, doInitChannel cfg s xdm.srcChainId params none false 0 = .ok (channelId, s₀)) ∧
      s₀.channels (xdm.srcChainId, xdm.channelId) = some channel ∧
      s' = { s₀ with
        channels := update s₀.channels (xdm.srcChainId, xdm.channelId)
          (some { channel with nextInboxNonce := xdm.nonce + 1 })
        inbox := some msg } := by
  obtain ⟨validated, valid, notFuture, preDispatched⟩ := validateAndPrepare_relayMessage prepared
  obtain ⟨-, proved, nextNonce, notStale, -, -⟩ := validateRelayMessage_eq_ok valid
  obtain ⟨sameSrc, sameChannel, sameNonce⟩ := xdm.fields_of_isSound sound proved
  obtain ⟨s₀, channel, started, found, -, rfl⟩ := preDispatchRelayMessage_eq_ok preDispatched
  rw [sameSrc, sameChannel] at found
  rw [sameSrc, sameChannel, sameNonce]
  refine ⟨validated.message, s₀, channel, proved, sameSrc, sameChannel, sameNonce, by omega, ?_, found, rfl⟩
  rcases started with ⟨-, rfl⟩ | ⟨params, channelId, -, initiated⟩
  · exact .inl rfl
  · rw [sameSrc] at initiated
    exact .inr ⟨params, channelId, initiated⟩

/-- `validate` and `prepare` of a sound relayed message keep the books and
leave the message below the next nonce of its channel, with no response yet. -/
theorem Bookkept.prepareRelayMessage (books : Bookkept cfg s) {xdm : CrossDomainMessage}
    (sound : xdm.isSound = true) (prepared : validateAndPrepare cfg s (.relayMessage xdm) = .ok s') :
    Bookkept cfg s' ∧ InboxPrepared s' := by
  obtain ⟨msg, s₀, channel, -, sameSrc, sameChannel, sameNonce, atNext, started, found, rfl⟩ :=
    preparedRelayMessage_eq sound prepared
  -- initiating the channel changes neither the next inbox nonces nor the responses
  obtain ⟨books₀, unchanged, responses⟩ : Bookkept cfg s₀ ∧
      channelField Channel.nextInboxNonce s₀.channels = channelField Channel.nextInboxNonce s.channels ∧
      s₀.inboxResponses = s.inboxResponses := by
    rcases started with rfl | ⟨params, channelId, initiated⟩
    · exact ⟨books, rfl, rfl⟩
    · have books₀ := books.doInitChannel initiated
      obtain ⟨_, _, rfl, rfl⟩ := doInitChannel_eq_ok initiated
      exact ⟨books₀, books.channelIds.channelField_init _ Channel.nextInboxNonce rfl, rfl⟩
  have current : channel.nextInboxNonce = xdm.nonce := by
    rw [atNext, ← unchanged]
    simp [channelField, found]
  refine ⟨(books₀.advanceInbox found _ (by omega)).setInbox _, msg, rfl, ?_, ?_⟩
  · simp [channelField, sameSrc, sameChannel, sameNonce]
  · -- the responses lie below the next nonce the message was at
    dsimp only
    rw [responses, sameSrc, sameChannel, sameNonce]
    cases stored : s.inboxResponses (xdm.srcChainId, xdm.channelId, xdm.nonce) with
    | none => rfl
    | some _ =>
      have := books.inbox.below xdm.srcChainId xdm.channelId xdm.nonce (by simp [stored])
      omega

/-- A sound response that passes `validate` and `prepare` is the one to the
first request whose response has not arrived, which moves past it. -/
theorem preparedRelayMessageResponse_eq {xdm : CrossDomainMessage} (sound : xdm.isSound = true)
    (prepared : validateAndPrepare cfg s (.relayMessageResponse xdm) = .ok s') :
    ∃ msg channel, xdm.proof = some msg ∧
      msg.srcChainId = xdm.srcChainId ∧ msg.channelId = xdm.channelId ∧ msg.nonce = xdm.nonce ∧
      s.channels (xdm.srcChainId, xdm.channelId) = some channel ∧ xdm.nonce = channel.firstUnanswered ∧
      s' = { s with
        channels := update s.channels (xdm.srcChainId, xdm.channelId)
          (some { channel with latestResponseReceivedMessageNonce := some xdm.nonce })
        outboxResponses := some msg } := by
  obtain ⟨validated, valid, notFuture, preDispatched⟩ := validateAndPrepare_relayMessageResponse prepared
  obtain ⟨channel, found, proved, nextNonce, notStale⟩ := validateRelayMessageResponse_eq_ok valid
  obtain ⟨sameSrc, sameChannel, sameNonce⟩ := xdm.fields_of_isSound sound proved
  obtain ⟨channel', found', rfl⟩ := preDispatchRelayMessageResponse_eq_ok preDispatched
  rw [sameSrc, sameChannel, found, Option.some.injEq] at found'
  subst found'
  rw [sameSrc, sameChannel, sameNonce]
  exact ⟨validated.message, channel, proved, sameSrc, sameChannel, sameNonce, found, by omega, rfl⟩

theorem Bookkept.prepareRelayMessageResponse (books : Bookkept cfg s) {xdm : CrossDomainMessage}
    (sound : xdm.isSound = true) (prepared : validateAndPrepare cfg s (.relayMessageResponse xdm) = .ok s') :
    Bookkept cfg s' ∧ OutboxResponsePrepared s' := by
  obtain ⟨msg, channel, -, sameSrc, sameChannel, sameNonce, found, atFirst, rfl⟩ :=
    preparedRelayMessageResponse_eq sound prepared
  refine ⟨(books.answerOutbox found _ ?_).setOutboxResponses _, msg, rfl, ?_⟩
  · simp only [Channel.firstUnanswered] at atFirst ⊢
    omega
  · simp [channelField, Channel.firstUnanswered, sameSrc, sameChannel, sameNonce]

/-! ## Transactions -/

/-- What `prepare` leaves for each call, the books kept. -/
theorem Bookkept.validateAndPrepare [DecidableEq A] (books : Bookkept cfg s) (env : Env A) {call : Call A}
    (sound : (Transaction.call call).isSound = true) {s₁ : State A}
    (prepared : validateAndPrepare cfg s call = .ok s₁) :
    Bookkept cfg s₁ ∧ ∀ {s₂ : State A}, dispatch cfg env s₁ call = .ok s₂ → Bookkept cfg s₂ := by
  cases call with
  | relayMessage xdm =>
    obtain ⟨books₁, ready⟩ := books.prepareRelayMessage sound prepared
    exact ⟨books₁, fun dispatched => books₁.relayMessage ready dispatched⟩
  | relayMessageResponse xdm =>
    obtain ⟨books₁, ready⟩ := books.prepareRelayMessageResponse sound prepared
    exact ⟨books₁, fun dispatched => books₁.relayMessageResponse ready dispatched⟩
  | initiateChannel owner dstChainId =>
    cases Except.pure_eq_ok.mp prepared
    exact ⟨books, fun dispatched => books.initiateChannel dispatched⟩
  | closeChannel closeChannelBy chainId channelId =>
    cases Except.pure_eq_ok.mp prepared
    exact ⟨books, fun dispatched => books.closeChannel dispatched⟩
  | updateConsensusChainAllowlist update =>
    cases Except.pure_eq_ok.mp prepared
    exact ⟨books, fun dispatched => books.updateConsensusChainAllowlist dispatched⟩
  | updateDomainAllowlist updates =>
    cases Except.pure_eq_ok.mp prepared
    exact ⟨books, fun dispatched => books.updateDomainAllowlist dispatched⟩

theorem Bookkept.applyExtrinsic [DecidableEq A] (books : Bookkept cfg s) {call : Call A}
    (sound : (Transaction.call call).isSound = true) {result : Except DispatchError Unit}
    (applied : applyExtrinsic cfg env s call = .ok (s', result)) : Bookkept cfg s' := by
  simp only [Messenger.applyExtrinsic, Except.bind_eq_ok, Except.pure_eq_ok] at applied
  obtain ⟨s₁, prepared, settled⟩ := applied
  obtain ⟨books₁, dispatched⟩ := books.validateAndPrepare env sound prepared
  -- a failed dispatch keeps what `prepare` wrote
  split at settled
  · cases settled
    exact dispatched ‹_›
  · cases settled
    exact books₁

theorem Bookkept.step [DecidableEq A] (books : Bookkept cfg s) {tx : Transaction A} (sound : tx.isSound = true) :
    Bookkept cfg (step cfg env s tx) := by
  cases tx with
  | call call =>
    simp only [Messenger.step]
    split
    · exact books.applyExtrinsic sound ‹_›
    · exact books
  | sendMessage sender dstChainId req =>
    simp only [Messenger.step]
    split
    · exact books.sendMessage ‹_›
    · exact books
  | onInitialize => exact books.onInitialize

/-- The storage is consistent in every reachable state. -/
theorem Reachable.bookkept [DecidableEq A] {s : State A} (reachable : Reachable cfg s) : Bookkept cfg s := by
  induction reachable with
  | genesis chainAllowlist => exact bookkept_genesis chainAllowlist
  | step env tx sound _ books => exact books.step sound

end Subspace.Messenger
