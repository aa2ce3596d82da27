import Subspace.Domains.Messenger.Types

/-!
# The messenger's books

What the storage of the pallet keeps consistent, stated over its maps alone,
with the operations the pallet performs on them. The pallet's functions act
on the books only through these operations (`Bookkeeping.lean`).

* `ChannelIds`: the channels of a chain are exactly those below its next
  channel id. A new channel takes that id.
* `OutboxBooks`: the outbox of a channel holds messages only below its next
  outbox nonce, each under its own key and beside its weight tag, counted by
  the channel's message count; it holds every message from the first whose
  response has not arrived up to the next nonce. `push` adds a message at the
  next nonce, `take` removes one whose response has arrived, `answer` moves
  the first unanswered nonce up.
* `InboxBooks`: the inbox responses of a channel lie below its next inbox
  nonce, each under its own key and beside its weight tag, and every fee on
  hold for a request belongs to a stored response. `put` stores a response,
  `take` removes one with its fee, `advance` moves the next nonce up.

Each channel's nonces are read through `channelField`, which is `0` where
there is no channel, so a channel that does not exist yet has an empty outbox
and no responses.
-/

namespace Subspace.Messenger

open Function

variable {A : Type}

/-- A field of each channel, `0` where there is no channel. -/
def channelField (f : Channel A → ℕ) (channels : ChainId × ℕ → Option (Channel A)) (key : ChainId × ℕ) : ℕ :=
  match channels key with
  | some channel => f channel
  | none => 0

theorem channelField_update (f : Channel A → ℕ) (channels : ChainId × ℕ → Option (Channel A))
    (key : ChainId × ℕ) (channel : Channel A) :
    channelField f (update channels key (some channel)) = update (channelField f channels) key (f channel) := by
  funext key'
  by_cases same : key' = key
  · subst same
    simp [channelField]
  · simp [channelField, same]

/-- Writing a channel whose field is unchanged leaves the field of every channel. -/
theorem channelField_update_of_eq (f : Channel A → ℕ) {channels : ChainId × ℕ → Option (Channel A)}
    {key : ChainId × ℕ} {old : Channel A} (present : channels key = some old) (channel : Channel A)
    (same : f channel = f old) : channelField f (update channels key (some channel)) = channelField f channels := by
  rw [channelField_update, same]
  apply update_eq_self_iff.mpr
  simp [channelField, present]

/-- The first nonce of a channel whose response has not arrived. -/
def Channel.firstUnanswered (channel : Channel A) : ℕ :=
  match channel.latestResponseReceivedMessageNonce with
  | none => 0
  | some nonce => nonce + 1

/-- The most messages a channel's outbox may hold. -/
def Channel.maxOutgoing (channel : Channel A) : ℕ := channel.maxOutgoingMessages.toNat

/-! ## Channel ids -/

/-- The channels of each chain are those below its next channel id. -/
def ChannelIds (channels : ChainId × ℕ → Option (Channel A)) (nextChannelId : ChainId → ℕ) : Prop :=
  ∀ chainId channelId, (channels (chainId, channelId)).isSome ↔ channelId < nextChannelId chainId

namespace ChannelIds

variable {channels : ChainId × ℕ → Option (Channel A)} {nextChannelId : ChainId → ℕ}

theorem channelIds_genesis : ChannelIds (fun _ => (none : Option (Channel A))) fun _ => 0 := by
  intro chainId channelId
  simp

/-- A new channel takes the next id, and the next id moves past it. -/
theorem init (ids : ChannelIds channels nextChannelId) (chainId : ChainId) (channel : Channel A) :
    ChannelIds (update channels (chainId, nextChannelId chainId) (some channel))
      (update nextChannelId chainId (nextChannelId chainId + 1)) := by
  intro chainId' channelId
  by_cases sameChain : chainId' = chainId
  · subst sameChain
    by_cases sameId : channelId = nextChannelId chainId'
    · subst sameId
      simp
    · simp only [update_apply, Prod.mk.injEq, true_and, sameId, if_false, if_true]
      rw [ids chainId' channelId]
      constructor <;> intro <;> omega
  · simp [sameChain, ids chainId' channelId]

/-- The new channel's fields read as the `0` read where there was no channel. -/
theorem channelField_init (ids : ChannelIds channels nextChannelId) (chainId : ChainId) {channel : Channel A}
    (f : Channel A → ℕ) (zero : f channel = 0) :
    channelField f (update channels (chainId, nextChannelId chainId) (some channel)) = channelField f channels := by
  have missing : channels (chainId, nextChannelId chainId) = none := by
    simpa using (ids chainId (nextChannelId chainId)).not.mpr (lt_irrefl _)
  rw [channelField_update, zero]
  apply update_eq_self_iff.mpr
  simp [channelField, missing]

/-- Rewriting a channel that exists keeps the ids. -/
theorem write (ids : ChannelIds channels nextChannelId) {key : ChainId × ℕ} {old : Channel A}
    (present : channels key = some old) (channel : Channel A) :
    ChannelIds (update channels key (some channel)) nextChannelId := by
  intro chainId channelId
  rw [← ids chainId channelId]
  by_cases same : (chainId, channelId) = key
  · rw [same, present]
    simp
  · simp [same]

/-- A channel that does not exist has the next id or a later one. -/
theorem le_of_none (ids : ChannelIds channels nextChannelId) {chainId : ChainId} {channelId : ℕ}
    (missing : channels (chainId, channelId) = none) : nextChannelId chainId ≤ channelId := by
  have notBelow := ids chainId channelId
  simp only [missing, Option.isSome_none, Bool.false_eq_true, false_iff, not_lt] at notBelow
  exact notBelow

end ChannelIds

/-! ## Counting the messages of a channel -/

section Count

variable {α : Type} (entries : ChainId × ℕ × ℕ → Option α) (chainId : ChainId) (channelId : ℕ)

/-- The nonces below `next` with an entry in the channel. -/
def presentBelow (next : ℕ) : Finset ℕ :=
  (Finset.range next).filter fun nonce => (entries (chainId, channelId, nonce)).isSome

variable {entries chainId channelId}

/-- An entry stored at the next nonce counts once more. -/
theorem card_presentBelow_update_next (next : ℕ) (a : α) :
    (presentBelow (update entries (chainId, channelId, next) (some a)) chainId channelId (next + 1)).card =
      (presentBelow entries chainId channelId next).card + 1 := by
  unfold presentBelow
  rw [Finset.range_add_one, Finset.filter_insert, if_pos (by simp)]
  have unchanged : ((Finset.range next).filter fun nonce =>
      (update entries (chainId, channelId, next) (some a) (chainId, channelId, nonce)).isSome) =
      (Finset.range next).filter fun nonce => (entries (chainId, channelId, nonce)).isSome := by
    refine Finset.filter_congr fun nonce below => ?_
    have other : nonce ≠ next := Nat.ne_of_lt (Finset.mem_range.mp below)
    simp [other]
  rw [unchanged, Finset.card_insert_of_notMem (by simp)]

/-- An entry removed from below the next nonce counts once less. -/
theorem card_presentBelow_update_none {next nonce : ℕ} (below : nonce < next)
    (present : (entries (chainId, channelId, nonce)).isSome) :
    (presentBelow (update entries (chainId, channelId, nonce) none) chainId channelId next).card + 1 =
      (presentBelow entries chainId channelId next).card := by
  have erased : presentBelow (update entries (chainId, channelId, nonce) none) chainId channelId next =
      (presentBelow entries chainId channelId next).erase nonce := by
    ext n
    by_cases same : n = nonce
    · subst same
      simp [presentBelow]
    · simp [presentBelow, update_apply, same]
  rw [erased, Finset.card_erase_add_one]
  simp [presentBelow, below, present]

/-- The entries of another channel do not count. -/
theorem presentBelow_update_of_ne {key : ChainId × ℕ × ℕ} (other : (key.1, key.2.1) ≠ (chainId, channelId))
    (v : Option α) (next : ℕ) :
    presentBelow (update entries key v) chainId channelId next = presentBelow entries chainId channelId next := by
  refine Finset.filter_congr fun nonce _ => ?_
  have differs : (chainId, channelId, nonce) ≠ key := by
    rintro rfl
    exact other rfl
  simp [differs]

end Count

/-! ## The outbox -/

/-- The books of the outbox of every channel, read through its message count
`counts`, its next outbox nonce `next`, its first unanswered nonce `first` and
the most messages it may hold, `capacity`. -/
structure OutboxBooks (selfChainId : ChainId) (outbox : ChainId × ℕ × ℕ → Option Message)
    (weightTags : ChainId × ℕ × ℕ → Option MessageWeightTag) (counts : ChainId × ℕ → ℕ)
    (feeKeys : Finset (ChainId × ℕ × ℕ)) (next first capacity : ChainId × ℕ → ℕ) : Prop where
  below : ∀ chainId channelId nonce, (outbox (chainId, channelId, nonce)).isSome →
    nonce < next (chainId, channelId)
  messages : ∀ chainId channelId nonce msg, outbox (chainId, channelId, nonce) = some msg →
    msg.srcChainId = selfChainId ∧ msg.dstChainId = chainId ∧ msg.channelId = channelId ∧ msg.nonce = nonce
  tags : ∀ key, (weightTags key).isSome = (outbox key).isSome
  count : ∀ chainId channelId,
    counts (chainId, channelId) = (presentBelow outbox chainId channelId (next (chainId, channelId))).card
  room : ∀ key, counts key ≤ capacity key
  pending : ∀ chainId channelId nonce, first (chainId, channelId) ≤ nonce → nonce < next (chainId, channelId) →
    (outbox (chainId, channelId, nonce)).isSome
  feesBelow : ∀ chainId channelId nonce, (chainId, channelId, nonce) ∈ feeKeys → nonce < next (chainId, channelId)
  bounded : ∀ key, next key ≤ u256Max

namespace OutboxBooks

variable {selfChainId : ChainId} {outbox : ChainId × ℕ × ℕ → Option Message}
  {weightTags : ChainId × ℕ × ℕ → Option MessageWeightTag} {counts : ChainId × ℕ → ℕ}
  {feeKeys : Finset (ChainId × ℕ × ℕ)} {next first capacity : ChainId × ℕ → ℕ}

theorem outboxBooks_genesis :
    OutboxBooks selfChainId (fun _ => none) (fun _ => none) (fun _ => 0) ∅ (fun _ => 0) (fun _ => 0) (fun _ => 0) where
  below := by simp
  messages := by simp
  tags := by simp
  count := by simp [presentBelow]
  room := by simp
  pending := by simp
  feesBelow := by simp
  bounded := by simp

/-- Nothing is stored at or above the next nonce. -/
theorem eq_none_of_le (books : OutboxBooks selfChainId outbox weightTags counts feeKeys next first capacity)
    {chainId : ChainId} {channelId nonce : ℕ} (above : next (chainId, channelId) ≤ nonce) :
    outbox (chainId, channelId, nonce) = none := by
  by_contra stored
  have := books.below chainId channelId nonce (Option.isSome_iff_ne_none.mpr stored)
  omega

/-- A channel with a message in its outbox counts it. -/
theorem count_pos (books : OutboxBooks selfChainId outbox weightTags counts feeKeys next first capacity)
    {chainId : ChainId} {channelId nonce : ℕ} (stored : (outbox (chainId, channelId, nonce)).isSome) :
    0 < counts (chainId, channelId) := by
  have sent := books.below chainId channelId nonce stored
  rw [books.count]
  exact Finset.card_pos.mpr ⟨nonce, by simp [presentBelow, sent, stored]⟩

/-- A message stored at the next nonce of a channel with room, with its tag,
counted, and the next nonce moved past it: `new_outbox_message`. -/
theorem push (books : OutboxBooks selfChainId outbox weightTags counts feeKeys next first capacity)
    (chainId : ChainId) (channelId : ℕ) (msg : Message) (tag : MessageWeightTag)
    (fields : msg.srcChainId = selfChainId ∧ msg.dstChainId = chainId ∧ msg.channelId = channelId ∧
      msg.nonce = next (chainId, channelId))
    (hasRoom : counts (chainId, channelId) < capacity (chainId, channelId))
    (inRange : next (chainId, channelId) < u256Max) :
    OutboxBooks selfChainId (update outbox (chainId, channelId, next (chainId, channelId)) (some msg))
      (update weightTags (chainId, channelId, next (chainId, channelId)) (some tag))
      (update counts (chainId, channelId) (counts (chainId, channelId) + 1)) feeKeys
      (update next (chainId, channelId) (next (chainId, channelId) + 1)) first capacity := by
  -- the next nonces of the other channels are unchanged; this one's grows by one
  have nextGrows : ∀ channelKey, next channelKey ≤ update next (chainId, channelId) (next (chainId, channelId) + 1)
      channelKey := by
    intro channelKey
    by_cases same : channelKey = (chainId, channelId)
    · subst same
      simp
    · simp [same]
  refine ⟨?below, ?messages, ?tags, ?count, ?room, ?pending, ?feesBelow, ?bounded⟩
  case below =>
    intro chainId' channelId' nonce stored
    by_cases same : (chainId', channelId', nonce) = (chainId, channelId, next (chainId, channelId))
    · simp only [Prod.mk.injEq] at same
      obtain ⟨rfl, rfl, rfl⟩ := same
      simp
    · simp only [update_apply, same, if_false] at stored
      exact Nat.lt_of_lt_of_le (books.below chainId' channelId' nonce stored) (nextGrows _)
  case messages =>
    intro chainId' channelId' nonce msg' stored
    by_cases same : (chainId', channelId', nonce) = (chainId, channelId, next (chainId, channelId))
    · simp only [Prod.mk.injEq] at same
      obtain ⟨rfl, rfl, rfl⟩ := same
      simp only [update_self, Option.some.injEq] at stored
      exact stored ▸ fields
    · simp only [update_apply, same, if_false] at stored
      exact books.messages chainId' channelId' nonce msg' stored
  case tags =>
    intro key'
    by_cases same : key' = (chainId, channelId, next (chainId, channelId))
    · simp [same]
    · simp [same, books.tags key']
  case count =>
    intro chainId' channelId'
    by_cases same : (chainId', channelId') = (chainId, channelId)
    · simp only [Prod.mk.injEq] at same
      obtain ⟨rfl, rfl⟩ := same
      simp only [update_self]
      rw [card_presentBelow_update_next, books.count]
    · rw [presentBelow_update_of_ne (by simpa using Ne.symm same)]
      simp [same, books.count chainId' channelId']
  case room =>
    intro channelKey
    by_cases same : channelKey = (chainId, channelId)
    · subst same
      simpa using hasRoom
    · simpa [same] using books.room channelKey
  case pending =>
    intro chainId' channelId' nonce answered unsent
    by_cases same : (chainId', channelId', nonce) = (chainId, channelId, next (chainId, channelId))
    · simp [same]
    · simp only [update_apply, same, if_false]
      by_cases sameChannel : (chainId', channelId') = (chainId, channelId)
      · simp only [Prod.mk.injEq] at sameChannel
        obtain ⟨rfl, rfl⟩ := sameChannel
        simp only [update_self] at unsent
        have older : nonce ≠ next (chainId', channelId') := fun equal => same (by simp [equal])
        exact books.pending chainId' channelId' nonce answered (by omega)
      · simp only [update_apply, sameChannel, if_false] at unsent
        exact books.pending chainId' channelId' nonce answered unsent
  case feesBelow =>
    intro chainId' channelId' nonce held
    exact Nat.lt_of_lt_of_le (books.feesBelow chainId' channelId' nonce held) (nextGrows _)
  case bounded =>
    intro channelKey
    by_cases same : channelKey = (chainId, channelId)
    · subst same
      simp only [update_self]
      omega
    · simpa [same] using books.bounded channelKey

/-- A fee held for a message already sent: `store_outbox_fee`. -/
theorem insertFee (books : OutboxBooks selfChainId outbox weightTags counts feeKeys next first capacity)
    {chainId : ChainId} {channelId nonce : ℕ} (sent : nonce < next (chainId, channelId)) :
    OutboxBooks selfChainId outbox weightTags counts (insert (chainId, channelId, nonce) feeKeys) next first
      capacity :=
  { books with
    feesBelow := by
      intro chainId' channelId' nonce' held
      rcases Finset.mem_insert.mp held with same | old
      · simp only [Prod.mk.injEq] at same
        obtain ⟨rfl, rfl, rfl⟩ := same
        exact sent
      · exact books.feesBelow chainId' channelId' nonce' old }

/-- Fewer fees held: `reward_operators_for_outbox_execution`. -/
theorem subsetFees (books : OutboxBooks selfChainId outbox weightTags counts feeKeys next first capacity)
    {feeKeys' : Finset (ChainId × ℕ × ℕ)} (fewer : feeKeys' ⊆ feeKeys) :
    OutboxBooks selfChainId outbox weightTags counts feeKeys' next first capacity :=
  { books with feesBelow := fun chainId channelId nonce held => books.feesBelow chainId channelId nonce (fewer held) }

/-- A message whose response has arrived is taken out with its tag, and counted
once less: `process_outbox_message_responses`. -/
theorem take (books : OutboxBooks selfChainId outbox weightTags counts feeKeys next first capacity)
    {chainId : ChainId} {channelId nonce : ℕ} (stored : (outbox (chainId, channelId, nonce)).isSome)
    (answered : nonce < first (chainId, channelId)) :
    OutboxBooks selfChainId (update outbox (chainId, channelId, nonce) none)
      (update weightTags (chainId, channelId, nonce) none)
      (update counts (chainId, channelId) (counts (chainId, channelId) - 1)) feeKeys next first capacity := by
  have sent := books.below chainId channelId nonce stored
  refine ⟨?below, ?messages, ?tags, ?count, ?room, ?pending, books.feesBelow, books.bounded⟩
  case below =>
    intro chainId' channelId' nonce' stored'
    by_cases same : (chainId', channelId', nonce') = (chainId, channelId, nonce)
    · simp [same] at stored'
    · simp only [update_apply, same, if_false] at stored'
      exact books.below chainId' channelId' nonce' stored'
  case messages =>
    intro chainId' channelId' nonce' msg stored'
    by_cases same : (chainId', channelId', nonce') = (chainId, channelId, nonce)
    · simp [same] at stored'
    · simp only [update_apply, same, if_false] at stored'
      exact books.messages chainId' channelId' nonce' msg stored'
  case tags =>
    intro key'
    by_cases same : key' = (chainId, channelId, nonce)
    · simp [same]
    · simp [same, books.tags key']
  case count =>
    intro chainId' channelId'
    by_cases same : (chainId', channelId') = (chainId, channelId)
    · simp only [Prod.mk.injEq] at same
      obtain ⟨rfl, rfl⟩ := same
      have removed := card_presentBelow_update_none sent stored
      simp only [update_self]
      rw [books.count]
      omega
    · rw [presentBelow_update_of_ne (by simpa using Ne.symm same)]
      simp [same, books.count chainId' channelId']
  case room =>
    intro channelKey
    by_cases same : channelKey = (chainId, channelId)
    · subst same
      have := books.room (chainId, channelId)
      simp only [update_self]
      omega
    · simpa [same] using books.room channelKey
  case pending =>
    intro chainId' channelId' nonce' unanswered unsent
    by_cases same : (chainId', channelId', nonce') = (chainId, channelId, nonce)
    · simp only [Prod.mk.injEq] at same
      obtain ⟨rfl, rfl, rfl⟩ := same
      omega
    · simp only [update_apply, same, if_false]
      exact books.pending chainId' channelId' nonce' unanswered unsent

/-- The first unanswered nonces move up: `pre_dispatch_relay_message_response`. -/
theorem answer (books : OutboxBooks selfChainId outbox weightTags counts feeKeys next first capacity)
    {first' : ChainId × ℕ → ℕ} (later : ∀ key, first key ≤ first' key) :
    OutboxBooks selfChainId outbox weightTags counts feeKeys next first' capacity :=
  { books with
    pending := fun chainId channelId nonce answered unsent =>
      books.pending chainId channelId nonce (Nat.le_trans (later _) answered) unsent }

/-- More room: a new channel. -/
theorem widen (books : OutboxBooks selfChainId outbox weightTags counts feeKeys next first capacity)
    {capacity' : ChainId × ℕ → ℕ} (more : ∀ key, capacity key ≤ capacity' key) :
    OutboxBooks selfChainId outbox weightTags counts feeKeys next first capacity' :=
  { books with room := fun key => Nat.le_trans (books.room key) (more key) }

end OutboxBooks

/-! ## The inbox responses -/

/-- The books of the inbox responses of every channel, read through its next
inbox nonce `next`. -/
structure InboxBooks (selfChainId : ChainId) (responses : ChainId × ℕ × ℕ → Option Message)
    (weightTags : ChainId × ℕ × ℕ → Option MessageWeightTag) (feeKeys : Finset (ChainId × ℕ × ℕ))
    (next : ChainId × ℕ → ℕ) : Prop where
  below : ∀ chainId channelId nonce, (responses (chainId, channelId, nonce)).isSome →
    nonce < next (chainId, channelId)
  messages : ∀ chainId channelId nonce msg, responses (chainId, channelId, nonce) = some msg →
    msg.srcChainId = selfChainId ∧ msg.dstChainId = chainId ∧ msg.channelId = channelId ∧ msg.nonce = nonce
  tags : ∀ key, (weightTags key).isSome = (responses key).isSome
  fees : ∀ key ∈ feeKeys, (responses key).isSome

namespace InboxBooks

variable {selfChainId : ChainId} {responses : ChainId × ℕ × ℕ → Option Message}
  {weightTags : ChainId × ℕ × ℕ → Option MessageWeightTag} {feeKeys : Finset (ChainId × ℕ × ℕ)}
  {next : ChainId × ℕ → ℕ}

theorem inboxBooks_genesis : InboxBooks selfChainId (fun _ => none) (fun _ => none) ∅ (fun _ => 0) where
  below := by simp
  messages := by simp
  tags := by simp
  fees := by simp

/-- No fee is held at a nonce with no response. -/
theorem not_mem_fees (books : InboxBooks selfChainId responses weightTags feeKeys next)
    {key : ChainId × ℕ × ℕ} (missing : responses key = none) : key ∉ feeKeys := fun held => by
  simpa [missing] using books.fees key held

/-- A response stored, with its tag, below the next nonce:
`process_inbox_messages`. -/
theorem put (books : InboxBooks selfChainId responses weightTags feeKeys next)
    {chainId : ChainId} {channelId nonce : ℕ} {msg : Message} (tag : MessageWeightTag)
    (received : nonce < next (chainId, channelId))
    (fields : msg.srcChainId = selfChainId ∧ msg.dstChainId = chainId ∧ msg.channelId = channelId ∧
      msg.nonce = nonce) :
    InboxBooks selfChainId (update responses (chainId, channelId, nonce) (some msg))
      (update weightTags (chainId, channelId, nonce) (some tag)) feeKeys next := by
  refine ⟨?below, ?messages, ?tags, ?fees⟩
  case below =>
    intro chainId' channelId' nonce' stored
    by_cases same : (chainId', channelId', nonce') = (chainId, channelId, nonce)
    · simp only [Prod.mk.injEq] at same
      obtain ⟨rfl, rfl, rfl⟩ := same
      exact received
    · simp only [update_apply, same, if_false] at stored
      exact books.below chainId' channelId' nonce' stored
  case messages =>
    intro chainId' channelId' nonce' msg' stored
    by_cases same : (chainId', channelId', nonce') = (chainId, channelId, nonce)
    · simp only [Prod.mk.injEq] at same
      obtain ⟨rfl, rfl, rfl⟩ := same
      simp only [update_self, Option.some.injEq] at stored
      exact stored ▸ fields
    · simp only [update_apply, same, if_false] at stored
      exact books.messages chainId' channelId' nonce' msg' stored
  case tags =>
    intro key'
    by_cases same : key' = (chainId, channelId, nonce)
    · simp [same]
    · simp [same, books.tags key']
  case fees =>
    intro key' held
    by_cases same : key' = (chainId, channelId, nonce)
    · simp [same]
    · simpa [update_apply, same] using books.fees key' held

/-- A fee held for a stored response: `store_inbox_fee`. -/
theorem holdFee (books : InboxBooks selfChainId responses weightTags feeKeys next) {key : ChainId × ℕ × ℕ}
    (stored : (responses key).isSome) : InboxBooks selfChainId responses weightTags (insert key feeKeys) next :=
  { books with
    fees := by
      intro key' held
      rcases Finset.mem_insert.mp held with rfl | old
      · exact stored
      · exact books.fees key' old }

/-- A response taken out with its tag and its fee: the loop of
`reward_operators_for_inbox_execution`. -/
theorem take (books : InboxBooks selfChainId responses weightTags feeKeys next) (key : ChainId × ℕ × ℕ) :
    InboxBooks selfChainId (update responses key none) (update weightTags key none) (feeKeys.erase key) next := by
  refine ⟨?below, ?messages, ?tags, ?fees⟩
  case below =>
    intro chainId channelId nonce stored
    by_cases same : (chainId, channelId, nonce) = key
    · simp [same] at stored
    · simp only [update_apply, same, if_false] at stored
      exact books.below chainId channelId nonce stored
  case messages =>
    intro chainId channelId nonce msg stored
    by_cases same : (chainId, channelId, nonce) = key
    · simp [same] at stored
    · simp only [update_apply, same, if_false] at stored
      exact books.messages chainId channelId nonce msg stored
  case tags =>
    intro key'
    by_cases same : key' = key
    · simp [same]
    · simp [same, books.tags key']
  case fees =>
    intro key' held
    have other : key' ≠ key := Finset.ne_of_mem_erase held
    simpa [update_apply, other] using books.fees key' (Finset.mem_of_mem_erase held)

/-- The next nonces move up: `pre_dispatch_relay_message`. -/
theorem advance (books : InboxBooks selfChainId responses weightTags feeKeys next)
    {next' : ChainId × ℕ → ℕ} (later : ∀ key, next key ≤ next' key) :
    InboxBooks selfChainId responses weightTags feeKeys next' :=
  { books with
    below := fun chainId channelId nonce stored =>
      Nat.lt_of_lt_of_le (books.below chainId channelId nonce stored) (later _) }

end InboxBooks

end Subspace.Messenger
