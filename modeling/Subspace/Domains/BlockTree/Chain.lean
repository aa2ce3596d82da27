import Subspace.Domains.BlockTree.Spec
import Subspace.Lib.HashChain
import Mathlib.Logic.Equiv.List

/-!
# The domain block tree stays one linked chain

Every reachable state of the block tree keeps two invariants.

1. `Provenance`: every hash in a domain's row has its node, keyed by the hash
   of its receipt and numbered by its place in the row, and every node is in
   some row. A ghost `owner` names the domain each receipt hash was added to;
   a receipt's parent has the same owner and a genesis receipt is its owner's.
   So a hash is never in two places (`Provenance.unique`), and pruning one
   place never takes the node of another.
2. `Window`: each domain's row is a `LinkedWindow` from its latest confirmed
   block up to its head.

`ChainInvariant.step` shows that each call keeps both; `Reachable.chainInvariant`
that every reachable state has them; `block_tree_single_linked_chain` reads
off what they say of one domain.

The hash of a receipt is injective, distinct domains have distinct genesis
state roots (the domain id is part of its raw genesis), and the pruning depth
is positive.
-/

namespace Subspace.BlockTree

variable {H : Type} (cfg : BlockTreeConfig H)

/-- Domain `d`'s row is a linked window from its latest confirmed block up to
its head. -/
def Window (s : State H) (d : ℕ) : Prop :=
  LinkedWindow cfg.hash ExecutionReceipt.parentDomainBlockReceiptHash cfg.blockTreePruningDepth
    (s.blockTree d) (s.latestConfirmedDomainBlockNumber d) (s.headReceiptNumber d)

section WindowFrame

variable {cfg} {s s' : State H} {d : ℕ}

/-- A window given by its row and its marks. -/
theorem Window.of_linked {row : ℕ → Option H} {low high : ℕ}
    (w : LinkedWindow cfg.hash ExecutionReceipt.parentDomainBlockReceiptHash
      cfg.blockTreePruningDepth row low high)
    (rowEq : s.blockTree d = row) (lowEq : s.latestConfirmedDomainBlockNumber d = low)
    (highEq : s.headReceiptNumber d = high) : Window cfg s d := by
  unfold Window
  rw [rowEq, lowEq, highEq]
  exact w

theorem Window.of_untouched {e : ℕ} (u : Untouched d s s') (other : e ≠ d)
    (w : Window cfg s e) : Window cfg s' e :=
  Window.of_linked w (u.blockTree e other)
    (State.latestConfirmedDomainBlockNumber_congr (u.latestConfirmed e other))
    (u.headReceiptNumber e other)

end WindowFrame

variable [Inhabited H]

/-- Where the hashes of the tree come from; `owner` is the ghost domain of each
receipt hash ever added. -/
structure Provenance (s : State H) (owner : H → Option ℕ) : Prop where
  /-- A domain not instantiated yet holds nothing. -/
  fresh : ∀ d, s.nextDomainId ≤ d → (∀ n, s.blockTree d n = none) ∧
    s.headReceiptNumber d = 0 ∧ s.latestConfirmedDomainExecutionReceipt d = none
  ownerBelow : ∀ h d, owner h = some d → d < s.nextDomainId
  /-- A node is keyed by the hash of its receipt. -/
  keyed : ∀ h node, s.blockTreeNodes h = some node → cfg.hash node.executionReceipt = h
  /-- A hash in a row is owned by the row's domain and has its node, numbered
  by its place. -/
  stored : ∀ d n h, s.blockTree d n = some h → owner h = some d ∧
    ∃ node, s.blockTreeNodes h = some node ∧ node.executionReceipt.domainBlockNumber = n
  referenced : ∀ h node, s.blockTreeNodes h = some node →
    ∃ d, s.blockTree d node.executionReceipt.domainBlockNumber = some h
  ownerParent : ∀ r d, owner (cfg.hash r) = some d → 0 < r.domainBlockNumber →
    owner r.parentDomainBlockReceiptHash = some d
  ownerGenesis : ∀ r d, owner (cfg.hash r) = some d → r.domainBlockNumber = 0 →
    r = cfg.genesisReceipt d

/-- The invariant of the block tree. -/
structure ChainInvariant (s : State H) : Prop where
  provenance : ∃ owner, Provenance cfg s owner
  window : ∀ d, Window cfg s d

variable {cfg}

section Provenance

variable {s : State H} {owner : H → Option ℕ}

theorem Provenance.empty : Provenance cfg (State.empty : State H) (fun _ => none) where
  fresh _ _ := ⟨fun _ => rfl, rfl, rfl⟩
  ownerBelow _ _ owned := by cases owned
  keyed _ _ stored := by cases stored
  stored _ _ _ held := by cases held
  referenced _ _ stored := by cases stored
  ownerParent _ _ owned := by cases owned
  ownerGenesis _ _ owned := by cases owned

theorem Provenance.of_sameTree {s' : State H} (p : Provenance cfg s owner)
    (same : SameTree s s') : Provenance cfg s' owner where
  fresh d beyond := by
    rw [same.blockTree, same.headReceiptNumber, same.latestConfirmed]
    exact p.fresh d (same.nextDomainId ▸ beyond)
  ownerBelow h d owned := same.nextDomainId ▸ p.ownerBelow h d owned
  keyed h node stored := p.keyed h node (same.blockTreeNodes ▸ stored)
  stored d n h held := by
    rw [same.blockTreeNodes]
    exact p.stored d n h (same.blockTree ▸ held)
  referenced h node stored := by
    rw [same.blockTree]
    exact p.referenced h node (same.blockTreeNodes ▸ stored)
  ownerParent := p.ownerParent
  ownerGenesis := p.ownerGenesis

/-- A domain whose row holds something is instantiated. -/
theorem Provenance.lt_next (p : Provenance cfg s owner) {d n : ℕ} {h : H}
    (held : s.blockTree d n = some h) : d < s.nextDomainId :=
  p.ownerBelow h d (p.stored d n h held).1

/-- A hash is held in one place of the tree at most. -/
theorem Provenance.unique (p : Provenance cfg s owner) {d n d' n' : ℕ} {h : H}
    (first : s.blockTree d n = some h) (second : s.blockTree d' n' = some h) :
    d' = d ∧ n' = n := by
  obtain ⟨ownedFirst, node, stored, numbered⟩ := p.stored d n h first
  obtain ⟨ownedSecond, node', stored', numbered'⟩ := p.stored d' n' h second
  rw [stored] at stored'
  cases stored'
  exact ⟨Option.some.inj (ownedSecond.symm.trans ownedFirst), numbered'.symm.trans numbered⟩

/-- A receipt whose hash is owned by `d`, if by anyone, and which is not held
in `d`'s row at its number, has no node. -/
theorem Provenance.node_eq_none (p : Provenance cfg s owner)
    (injective : Function.Injective cfg.hash) {d : ℕ} {r : ExecutionReceipt H}
    (empty : s.blockTree d r.domainBlockNumber = none)
    (owned : owner (cfg.hash r) = none ∨ owner (cfg.hash r) = some d) :
    s.blockTreeNodes (cfg.hash r) = none := by
  cases stored : s.blockTreeNodes (cfg.hash r) with
  | none => rfl
  | some node =>
    -- the node is `r`'s own, so `r` is held at its number in its owner's row
    have same : node.executionReceipt = r := injective (p.keyed _ node stored)
    obtain ⟨e, held⟩ := p.referenced _ node stored
    rw [same] at held
    have ownedByE := (p.stored e _ _ held).1
    rcases owned with unowned | ownedByD
    · rw [unowned] at ownedByE
      cases ownedByE
    · rw [ownedByD] at ownedByE
      obtain rfl := Option.some.inj ownedByE
      rw [empty] at held
      cases held

theorem Provenance.setHeadReceiptNumber (p : Provenance cfg s owner) {d : ℕ}
    (active : d < s.nextDomainId) (number : ℕ) :
    Provenance cfg (s.setHeadReceiptNumber d number) owner where
  fresh e beyond := by
    change s.nextDomainId ≤ e at beyond
    obtain ⟨empty, head, confirmed⟩ := p.fresh e beyond
    have other : e ≠ d := by omega
    exact ⟨empty, by simp [other, head], confirmed⟩
  ownerBelow := p.ownerBelow
  keyed := p.keyed
  stored := p.stored
  referenced := p.referenced
  ownerParent := p.ownerParent
  ownerGenesis := p.ownerGenesis

theorem Provenance.setLatestConfirmed (p : Provenance cfg s owner) {d : ℕ}
    (active : d < s.nextDomainId) (receipt : ExecutionReceipt H) :
    Provenance cfg (s.setLatestConfirmed d receipt) owner where
  fresh e beyond := by
    change s.nextDomainId ≤ e at beyond
    obtain ⟨empty, head, confirmed⟩ := p.fresh e beyond
    have other : e ≠ d := by omega
    exact ⟨empty, head, by simp [other, confirmed]⟩
  ownerBelow := p.ownerBelow
  keyed := p.keyed
  stored := p.stored
  referenced := p.referenced
  ownerParent := p.ownerParent
  ownerGenesis := p.ownerGenesis

variable [DecidableEq H]

/-- Pruning a place of the tree takes out the one node held there. -/
theorem Provenance.prune (p : Provenance cfg s owner) {d n : ℕ} {h : H}
    (held : s.blockTree d n = some h) :
    Provenance cfg ((s.setBlockTree d n none).setBlockTreeNode h none) owner where
  fresh e beyond := by
    obtain ⟨empty, head, confirmed⟩ := p.fresh e beyond
    refine ⟨fun k => ?_, head, confirmed⟩
    simp [empty]
  ownerBelow := p.ownerBelow
  keyed h' node stored := by
    simp only [State.setBlockTreeNode_blockTreeNodes, State.setBlockTree_blockTreeNodes] at stored
    split_ifs at stored
    exact p.keyed h' node stored
  stored e k h' held' := by
    simp only [State.setBlockTreeNode_blockTree, State.setBlockTree_blockTree] at held'
    split_ifs at held' with here
    obtain ⟨owned, node, nodeStored, numbered⟩ := p.stored e k h' held'
    -- the pruned hash is held nowhere else, so no other place lost its node
    have other : h' ≠ h := by
      rintro rfl
      exact here (p.unique held held')
    exact ⟨owned, node, by simp [other, nodeStored], numbered⟩
  referenced h' node stored := by
    simp only [State.setBlockTreeNode_blockTreeNodes, State.setBlockTree_blockTreeNodes] at stored
    split_ifs at stored with other
    obtain ⟨e, held'⟩ := p.referenced h' node stored
    refine ⟨e, ?_⟩
    simp only [State.setBlockTreeNode_blockTree, State.setBlockTree_blockTree]
    rw [if_neg]
    · exact held'
    · rintro ⟨rfl, same⟩
      rw [same, held] at held'
      exact other (Option.some.inj held').symm
  ownerParent := p.ownerParent
  ownerGenesis := p.ownerGenesis

/-- A node can be rewritten with the same receipt. -/
theorem Provenance.setNode (p : Provenance cfg s owner) {h : H} {node node' : BlockTreeNode H}
    (stored : s.blockTreeNodes h = some node)
    (same : node'.executionReceipt = node.executionReceipt) :
    Provenance cfg (s.setBlockTreeNode h (some node')) owner where
  fresh := p.fresh
  ownerBelow := p.ownerBelow
  keyed h' node'' stored' := by
    simp only [State.setBlockTreeNode_blockTreeNodes] at stored'
    split_ifs at stored' with here
    · cases stored'
      subst here
      rw [same]
      exact p.keyed h' node stored
    · exact p.keyed h' node'' stored'
  stored e k h' held := by
    obtain ⟨owned, node'', stored', numbered⟩ := p.stored e k h' held
    by_cases here : h' = h
    · subst here
      rw [stored] at stored'
      cases stored'
      exact ⟨owned, node', by simp, same ▸ numbered⟩
    · exact ⟨owned, node'', by simp [here, stored'], numbered⟩
  referenced h' node'' stored' := by
    simp only [State.setBlockTreeNode_blockTreeNodes] at stored'
    split_ifs at stored' with here
    · cases stored'
      subst here
      rw [same, State.setBlockTreeNode_blockTree]
      exact p.referenced h' node stored
    · exact p.referenced h' node'' stored'
  ownerParent := p.ownerParent
  ownerGenesis := p.ownerGenesis

/-- Adding a receipt at an empty place of an instantiated domain's row, when
its hash is owned by that domain if by anyone, its parent is owned by it too
and a genesis receipt is the domain's own. -/
theorem Provenance.insert (p : Provenance cfg s owner) (injective : Function.Injective cfg.hash)
    {d : ℕ} {r : ExecutionReceipt H} (operatorIds : List ℕ) (active : d < s.nextDomainId)
    (empty : s.blockTree d r.domainBlockNumber = none)
    (owned : owner (cfg.hash r) = none ∨ owner (cfg.hash r) = some d)
    (parentOwned : 0 < r.domainBlockNumber → owner r.parentDomainBlockReceiptHash = some d)
    (genesis : r.domainBlockNumber = 0 → r = cfg.genesisReceipt d) :
    Provenance cfg ((s.setBlockTree d r.domainBlockNumber (some (cfg.hash r))).setBlockTreeNode
      (cfg.hash r) (some ⟨r, operatorIds⟩)) (Function.update owner (cfg.hash r) (some d)) := by
  have noNode := p.node_eq_none injective empty owned
  exact {
    fresh := fun e beyond => by
      change s.nextDomainId ≤ e at beyond
      obtain ⟨emptyRow, head, confirmed⟩ := p.fresh e beyond
      have other : e ≠ d := by omega
      exact ⟨fun k => by simp [other, emptyRow], head, confirmed⟩
    ownerBelow := fun h e owned' => by
      by_cases here : h = cfg.hash r
      · subst here
        simp only [Function.update_self, Option.some.injEq] at owned'
        exact owned' ▸ active
      · rw [Function.update_of_ne here] at owned'
        exact p.ownerBelow h e owned'
    keyed := fun h node stored => by
      simp only [State.setBlockTreeNode_blockTreeNodes, State.setBlockTree_blockTreeNodes]
        at stored
      split_ifs at stored with here
      · cases stored
        exact here.symm
      · exact p.keyed h node stored
    stored := fun e k h held => by
      simp only [State.setBlockTreeNode_blockTree, State.setBlockTree_blockTree] at held
      split_ifs at held with here
      · obtain ⟨rfl, rfl⟩ := here
        cases held
        exact ⟨by simp, ⟨r, operatorIds⟩, by simp, rfl⟩
      · obtain ⟨ownedH, node, stored, numbered⟩ := p.stored e k h held
        have other : h ≠ cfg.hash r := by
          rintro rfl
          rw [noNode] at stored
          cases stored
        exact ⟨by rw [Function.update_of_ne other]; exact ownedH, node,
          by simp [other, stored], numbered⟩
    referenced := fun h node stored => by
      simp only [State.setBlockTreeNode_blockTreeNodes, State.setBlockTree_blockTreeNodes]
        at stored
      split_ifs at stored with here
      · cases stored
        subst here
        exact ⟨d, by simp⟩
      · obtain ⟨e, held⟩ := p.referenced h node stored
        refine ⟨e, ?_⟩
        simp only [State.setBlockTreeNode_blockTree, State.setBlockTree_blockTree]
        rw [if_neg]
        · exact held
        · rintro ⟨rfl, same⟩
          rw [same, empty] at held
          cases held
    ownerParent := fun r' e owned' positive => by
      by_cases here : cfg.hash r' = cfg.hash r
      · -- the new receipt's parent is owned by its domain
        obtain rfl := injective here
        simp only [Function.update_self, Option.some.injEq] at owned'
        subst owned'
        by_cases parentIsNew : r'.parentDomainBlockReceiptHash = cfg.hash r'
        · simp [parentIsNew]
        · rw [Function.update_of_ne parentIsNew]
          exact parentOwned positive
      · rw [Function.update_of_ne here] at owned'
        have parentOwner := p.ownerParent r' e owned' positive
        by_cases parentIsNew : r'.parentDomainBlockReceiptHash = cfg.hash r
        · -- an earlier receipt names the new one as parent, so `d` owned it already
          rw [parentIsNew] at parentOwner ⊢
          rcases owned with unowned | ownedByD
          · rw [unowned] at parentOwner
            cases parentOwner
          · rw [ownedByD] at parentOwner
            simpa using parentOwner
        · rw [Function.update_of_ne parentIsNew]
          exact parentOwner
    ownerGenesis := fun r' e owned' zero => by
      by_cases here : cfg.hash r' = cfg.hash r
      · obtain rfl := injective here
        simp only [Function.update_self, Option.some.injEq] at owned'
        exact owned' ▸ genesis zero
      · rw [Function.update_of_ne here] at owned'
        exact p.ownerGenesis r' e owned' zero }

/-- A new head, whose parent is in the domain's row, is added at an empty place. -/
theorem Provenance.add (p : Provenance cfg s owner) (injective : Function.Injective cfg.hash)
    {d : ℕ} {r : ExecutionReceipt H} (operatorIds : List ℕ)
    (empty : s.blockTree d r.domainBlockNumber = none) (positive : 0 < r.domainBlockNumber)
    (parentHeld : s.blockTree d (r.domainBlockNumber - 1) = some r.parentDomainBlockReceiptHash) :
    Provenance cfg ((s.setBlockTree d r.domainBlockNumber (some (cfg.hash r))).setBlockTreeNode
      (cfg.hash r) (some ⟨r, operatorIds⟩)) (Function.update owner (cfg.hash r) (some d)) := by
  have parentOwned := (p.stored d _ _ parentHeld).1
  -- whoever owns the receipt owns its parent, which is `d`
  have owned : owner (cfg.hash r) = none ∨ owner (cfg.hash r) = some d := by
    cases ownedBy : owner (cfg.hash r) with
    | none => exact .inl rfl
    | some e =>
      have parentOwner := p.ownerParent r e ownedBy positive
      rw [parentOwned] at parentOwner
      exact .inr (congrArg some (Option.some.inj parentOwner).symm)
  exact p.insert injective operatorIds (p.lt_next parentHeld) empty owned
    (fun _ => parentOwned) (fun zero => absurd zero (Nat.ne_of_gt positive))

/-- `do_instantiate_domain` imports a genesis receipt no domain owned. -/
theorem Provenance.instantiateDomain (p : Provenance cfg s owner)
    (injective : Function.Injective cfg.hash) (distinct : Function.Injective cfg.genesisStateRoot) :
    Provenance cfg (instantiateDomain cfg s)
      (Function.update owner (cfg.hash (cfg.genesisReceipt s.nextDomainId)) (some s.nextDomainId)) := by
  let bumped : State H := { s with nextDomainId := s.nextDomainId + 1 }
  have pBumped : Provenance cfg bumped owner :=
    { p with
      fresh := fun e beyond => p.fresh e (by simp only [bumped] at beyond; omega)
      ownerBelow := fun h e owned => by
        have := p.ownerBelow h e owned
        simp only [bumped]
        omega }
  have active : s.nextDomainId < bumped.nextDomainId := Nat.lt_succ_self _
  -- a genesis receipt owned by an earlier domain would be that domain's own
  have owned : owner (cfg.hash (cfg.genesisReceipt s.nextDomainId)) = none := by
    cases ownedBy : owner (cfg.hash (cfg.genesisReceipt s.nextDomainId)) with
    | none => rfl
    | some e =>
      have below := p.ownerBelow _ e ownedBy
      have same := BlockTreeConfig.genesisReceipt_injective distinct
        (p.ownerGenesis _ e ownedBy rfl)
      omega
  have empty := (p.fresh s.nextDomainId (Nat.le_refl _)).1
  exact (pBumped.setLatestConfirmed active _).insert injective [] active
    (empty _) (.inl owned) (fun positive => absurd positive (Nat.lt_irrefl 0))
    (fun _ => rfl)

end Provenance

section Frame

variable {s s' : State H} {d : ℕ}

/-- A call that writes domain `d` alone keeps the invariant when it keeps
provenance and `d`'s window. -/
theorem ChainInvariant.of_write (inv : ChainInvariant cfg s) {owner : H → Option ℕ}
    (p : Provenance cfg s' owner) (u : Untouched d s s') (w : Window cfg s' d) :
    ChainInvariant cfg s' where
  provenance := ⟨owner, p⟩
  window e := by
    by_cases here : e = d
    · exact here ▸ w
    · exact (inv.window e).of_untouched u here

theorem ChainInvariant.of_sameTree (inv : ChainInvariant cfg s) (same : SameTree s s') :
    ChainInvariant cfg s' where
  provenance := by
    obtain ⟨owner, p⟩ := inv.provenance
    exact ⟨owner, p.of_sameTree same⟩
  window e := Window.of_linked (inv.window e) (by rw [same.blockTree])
    (State.latestConfirmedDomainBlockNumber_congr (by rw [same.latestConfirmed]))
    (by rw [same.headReceiptNumber])

theorem ChainInvariant.empty : ChainInvariant cfg (State.empty : State H) where
  provenance := ⟨_, Provenance.empty⟩
  window _ := LinkedWindow.empty

end Frame

section Steps

variable [DecidableEq H] {s s' : State H} {d : ℕ}

/-- A node rewritten with its own receipt. -/
theorem ChainInvariant.setNode (inv : ChainInvariant cfg s) {h : H} {node node' : BlockTreeNode H}
    (stored : s.blockTreeNodes h = some node)
    (same : node'.executionReceipt = node.executionReceipt) :
    ChainInvariant cfg (s.setBlockTreeNode h (some node')) where
  provenance := by
    obtain ⟨owner, p⟩ := inv.provenance
    exact ⟨owner, p.setNode stored same⟩
  window := inv.window

/-- Pruning above the head of a domain, as a new head does at its own number
before it is added: a stale record left by a fraud proof leaves the row. -/
theorem ChainInvariant.pruneAbove (inv : ChainInvariant cfg s) {n : ℕ}
    (beyond : s.headReceiptNumber d < n) {pruned : Option (BlockTreeNode H)}
    (ok : pruneReceipt s d n = .ok (s', pruned)) :
    ChainInvariant cfg s' ∧ s'.headReceiptNumber d = s.headReceiptNumber d ∧
      ∀ k, k ≠ n → s'.blockTree d k = s.blockTree d k := by
  rcases pruneReceipt_eq_ok ok with ⟨-, rfl, -⟩ | ⟨h, node, held, -, -, same⟩
  · exact ⟨inv, rfl, fun _ _ => rfl⟩
  · obtain ⟨owner, p⟩ := inv.provenance
    have rowEq : s'.blockTree d = Function.update (s.blockTree d) n none := by
      rw [same.blockTree, State.setBlockTreeNode_blockTree, State.setBlockTree_row]
    have headEq : s'.headReceiptNumber d = s.headReceiptNumber d := by
      rw [same.headReceiptNumber]
      rfl
    have untouched : Untouched d s s' :=
      ((Untouched.setBlockTree n none).trans (Untouched.setBlockTreeNode h none)).trans
        (Untouched.of_sameTree same)
    have window : Window cfg s' d :=
      Window.of_linked (LinkedWindow.drop_above (inv.window d) beyond) rowEq
        (State.latestConfirmedDomainBlockNumber_congr (by rw [same.latestConfirmed]; rfl)) headEq
    refine ⟨inv.of_write ((p.prune held).of_sameTree same) untouched window, headEq, ?_⟩
    intro k other
    rw [rowEq, Function.update_of_ne other]

/-- A receipt for the current head only adds its submitter to the node. -/
theorem ChainInvariant.currentHead (inv : ChainInvariant cfg s) {o : ℕ} {r : ExecutionReceipt H}
    {info : Option ConfirmedDomainBlockInfo}
    (ok : processExecutionReceipt cfg s d o r .currentHead = .ok (s', info)) :
    ChainInvariant cfg s' := by
  rcases processExecutionReceipt_currentHead ok with ⟨-, same⟩ | ⟨node, stored, same⟩
  · exact inv.of_sameTree same
  · have kept : ChainInvariant cfg (s.setBlockTreeNode (cfg.hash r)
        (some { node with operatorIds := node.operatorIds ++ [o] })) := inv.setNode stored rfl
    exact kept.of_sameTree same

/-- A fraud proof prunes a receipt at or below the head and takes the head
back below it; what is left above stays in the row as a stale record. -/
theorem ChainInvariant.submitFraudProof (inv : ChainInvariant cfg s) {badReceiptHash : H}
    (ok : submitFraudProof s d badReceiptHash = .ok s') : ChainInvariant cfg s' := by
  obtain ⟨badNode, -, below, s₁, pruned, prunedOk, rfl⟩ := submitFraudProof_eq_ok ok
  rcases pruneReceipt_eq_ok prunedOk with ⟨-, -, noneEq⟩ | ⟨h, node, held, -, -, same⟩
  · cases noneEq
  · obtain ⟨owner, p⟩ := inv.provenance
    have active : d < s₁.nextDomainId := by
      rw [same.nextDomainId]
      exact p.lt_next held
    have untouched : Untouched d s (s₁.setHeadReceiptNumber d
        (badNode.executionReceipt.domainBlockNumber - 1)) :=
      ((((Untouched.setBlockTree _ none).trans (Untouched.setBlockTreeNode h none)).trans
        (Untouched.of_sameTree same)).trans (Untouched.setHeadReceiptNumber _))
    have window : Window cfg (s₁.setHeadReceiptNumber d
        (badNode.executionReceipt.domainBlockNumber - 1)) d := by
      refine Window.of_linked (LinkedWindow.revert (inv.window d) (by simp [held]) below) ?_ ?_
        (by simp)
      · rw [State.setHeadReceiptNumber_blockTree, same.blockTree, State.setBlockTreeNode_blockTree,
          State.setBlockTree_row]
      · exact State.latestConfirmedDomainBlockNumber_congr (by
          rw [State.setHeadReceiptNumber_latestConfirmedDomainExecutionReceipt, same.latestConfirmed]
          rfl)
    exact inv.of_write (((p.prune held).of_sameTree same).setHeadReceiptNumber active _)
      untouched window

/-- The state after a new head `r` is added and made the head, before the
depth pruning. -/
theorem ChainInvariant.addHead (injective : Function.Injective cfg.hash)
    (inv : ChainInvariant cfg s) {o : ℕ} {r : ExecutionReceipt H} {s₁ s₂ : State H}
    (numbered : r.domainBlockNumber = s.headReceiptNumber d + 1)
    (parentHeld : s.blockTree d (s.headReceiptNumber d) = some r.parentDomainBlockReceiptHash)
    (added : addNewReceiptToBlockTree cfg s d o r = .ok s₁)
    (written : s₂ = (s₁.setHeadReceiptNumber d r.domainBlockNumber).setNewAddedHeadReceipt d
      (some (cfg.hash r))) :
    (∃ owner, Provenance cfg s₂ owner) ∧ Untouched d s s₂ ∧
      s₂.blockTree d =
        Function.update (s.blockTree d) (s.headReceiptNumber d + 1) (some (cfg.hash r)) ∧
      s₂.headReceiptNumber d = s.headReceiptNumber d + 1 ∧
      s₂.latestConfirmedDomainBlockNumber d = s.latestConfirmedDomainBlockNumber d := by
  obtain ⟨owner, p⟩ := inv.provenance
  obtain ⟨empty, rfl⟩ := addNewReceiptToBlockTree_eq_ok added
  subst written
  have parentBelow :
      s.blockTree d (r.domainBlockNumber - 1) = some r.parentDomainBlockReceiptHash := by
    rw [numbered, Nat.add_sub_cancel]
    exact parentHeld
  have headed := (p.add injective [o] empty (by omega) parentBelow).setHeadReceiptNumber
    (p.lt_next parentHeld) r.domainBlockNumber
  refine ⟨⟨_, headed.of_sameTree (SameTree.setNewAddedHeadReceipt _ d _)⟩, ?_, ?_, ?_, rfl⟩
  · exact (((Untouched.setBlockTree _ _).trans (Untouched.setBlockTreeNode _ _)).trans
      (Untouched.setHeadReceiptNumber _)).trans
        (Untouched.of_sameTree (SameTree.setNewAddedHeadReceipt _ d _))
  · rw [State.setNewAddedHeadReceipt_blockTree, State.setHeadReceiptNumber_blockTree,
      State.setBlockTreeNode_blockTree, State.setBlockTree_row, numbered]
  · simp [numbered]

section Extend

variable (injective : Function.Injective cfg.hash) (deep : 0 < cfg.blockTreePruningDepth)
include injective deep

/-- A new head on top of domain `d`'s head: below the depth it only extends
the window; at the depth the receipt the depth below it is confirmed, or was
gone already. -/
theorem ChainInvariant.newHead (inv : ChainInvariant cfg s) {o : ℕ} {r : ExecutionReceipt H}
    {info : Option ConfirmedDomainBlockInfo}
    (numbered : r.domainBlockNumber = s.headReceiptNumber d + 1)
    (parentHeld : s.blockTree d (s.headReceiptNumber d) = some r.parentDomainBlockReceiptHash)
    (ok : processExecutionReceipt cfg s d o r .newHead = .ok (s', info)) :
    ChainInvariant cfg s' := by
  obtain ⟨s₁, s₂, added, written, outcome⟩ := processExecutionReceipt_newHead ok
  obtain ⟨⟨owner, p₂⟩, untouched₂, row₂, head₂, low₂⟩ :=
    inv.addHead injective numbered parentHeld added written
  have w := inv.window d
  rcases outcome with ⟨shallow, same⟩ | ⟨reached, gone | ⟨s₃, node, pruned, rfl⟩⟩
  · -- below the depth nothing is confirmed
    have window : Window cfg s' d := by
      refine Window.of_linked (LinkedWindow.extend w parentHeld injective deep
        (fun reached => absurd reached (by omega))) ?_ ?_ ?_
      · rw [same.blockTree, row₂]
      · rw [← low₂]
        exact State.latestConfirmedDomainBlockNumber_congr (by rw [same.latestConfirmed])
      · rw [same.headReceiptNumber, head₂]
    exact inv.of_write (p₂.of_sameTree same) (untouched₂.trans (Untouched.of_sameTree same)) window
  · -- the receipt the depth below was pruned by a fraud proof: nothing is confirmed
    rcases pruneReceipt_eq_ok gone with ⟨empty, rfl, -⟩ | ⟨_, _, _, _, noneEq, _⟩
    · have window : Window cfg s' d :=
        Window.of_linked (LinkedWindow.extend w parentHeld injective deep (fun _ => by
          rw [← row₂, ← numbered]
          exact empty)) row₂ low₂ head₂
      exact inv.of_write p₂ untouched₂ window
    · cases noneEq
  · rcases pruneReceipt_eq_ok pruned with ⟨-, -, noneEq⟩ | ⟨h, node', held, stored, someEq, same⟩
    · cases noneEq
    · cases someEq
      -- the confirmed receipt is numbered by its place, the depth below the new head
      obtain ⟨-, node'', stored', numberedNode⟩ := p₂.stored d _ h held
      rw [stored] at stored'
      cases stored'
      have active : d < s₃.nextDomainId := by
        rw [same.nextDomainId]
        exact p₂.lt_next held
      have confirmed : Function.update (s.blockTree d) (s.headReceiptNumber d + 1)
          (some (cfg.hash r)) (s.headReceiptNumber d + 1 - cfg.blockTreePruningDepth) = some h := by
        rw [← row₂, ← numbered]
        exact held
      have window : Window cfg (s₃.setLatestConfirmed d node.executionReceipt) d := by
        refine Window.of_linked (LinkedWindow.extend_confirm w parentHeld injective deep
          (by omega) confirmed) ?_ ?_ ?_
        · rw [State.setLatestConfirmed_blockTree, same.blockTree, State.setBlockTreeNode_blockTree,
            State.setBlockTree_row, row₂, numbered]
        · rw [State.latestConfirmedDomainBlockNumber_setLatestConfirmed, numberedNode, numbered]
        · rw [State.setLatestConfirmed_headReceiptNumber, same.headReceiptNumber]
          exact head₂
      have untouched : Untouched d s (s₃.setLatestConfirmed d node.executionReceipt) :=
        (untouched₂.trans (((Untouched.setBlockTree _ none).trans
          (Untouched.setBlockTreeNode h none)).trans (Untouched.of_sameTree same))).trans
            (Untouched.setLatestConfirmed _)
      exact inv.of_write (((p₂.prune held).of_sameTree same).setLatestConfirmed active _)
        untouched window

/-- The receipt part of `submit_bundle` and `submit_receipt` keeps the
invariant for a verified receipt. -/
theorem ChainInvariant.acceptReceipt (inv : ChainInvariant cfg s) {o : ℕ}
    {r : ExecutionReceipt H} {consensusChecks : Except Error Unit}
    {info : Option ConfirmedDomainBlockInfo}
    (verified : verifyExecutionReceipt cfg s d r consensusChecks = .ok ())
    (ok : acceptReceipt cfg s d o r = .ok (s', info)) : ChainInvariant cfg s' := by
  rcases acceptReceipt_eq_ok ok with ⟨typed, s₀, pruned, prunedOk, processed⟩ | ⟨-, processed⟩
  · obtain ⟨numbered, fresh⟩ := executionReceiptType_eq_newHead.mp typed
    have parentHeld := verifyExecutionReceipt_parent verified fresh (by omega)
    rw [numbered, Nat.add_sub_cancel] at parentHeld
    -- the pre-pruning at the new head's number leaves the head and the row below it
    obtain ⟨inv₀, head₀, row₀⟩ := inv.pruneAbove (by omega) prunedOk
    refine inv₀.newHead injective deep (by rw [head₀]; exact numbered) ?_ processed
    rw [head₀, row₀ _ (by omega)]
    exact parentHeld
  · exact inv.currentHead processed

end Extend

section Run

variable (injective : Function.Injective cfg.hash)
  (distinct : Function.Injective cfg.genesisStateRoot) (deep : 0 < cfg.blockTreePruningDepth)
include injective distinct deep

/-- A new domain starts with its genesis receipt as the only record of its row. -/
theorem ChainInvariant.instantiateDomain (inv : ChainInvariant cfg s) :
    ChainInvariant cfg (BlockTree.instantiateDomain cfg s) := by
  obtain ⟨owner, p⟩ := inv.provenance
  obtain ⟨empty, head, confirmed⟩ := p.fresh s.nextDomainId (Nat.le_refl _)
  have untouched : Untouched s.nextDomainId s (BlockTree.instantiateDomain cfg s) :=
    (((⟨fun _ _ => rfl, fun _ _ => rfl, fun _ _ => rfl⟩ :
        Untouched s.nextDomainId s { s with nextDomainId := s.nextDomainId + 1 }).trans
      (Untouched.setLatestConfirmed _)).trans (Untouched.setBlockTree _ _)).trans
        (Untouched.setBlockTreeNode _ _)
  have window : Window cfg (BlockTree.instantiateDomain cfg s) s.nextDomainId := by
    refine Window.of_linked (LinkedWindow.start deep
      (cfg.hash (cfg.genesisReceipt s.nextDomainId))) ?_ ?_ ?_
    · rw [BlockTree.instantiateDomain, importGenesisReceipt, State.setBlockTreeNode_blockTree,
        State.setBlockTree_row, State.setLatestConfirmed_blockTree, funext empty]
      rfl
    · -- the genesis receipt is the latest confirmed one
      change ({ s with nextDomainId := s.nextDomainId + 1 }.setLatestConfirmed s.nextDomainId
        (cfg.genesisReceipt s.nextDomainId)).latestConfirmedDomainBlockNumber s.nextDomainId = 0
      rw [State.latestConfirmedDomainBlockNumber_setLatestConfirmed,
        BlockTreeConfig.genesisReceipt_domainBlockNumber]
    · simpa [BlockTree.instantiateDomain, importGenesisReceipt] using head
  exact inv.of_write (p.instantiateDomain injective distinct) untouched window

/-- Every call keeps the invariant. -/
theorem ChainInvariant.step (inv : ChainInvariant cfg s) {action : Action H}
    (stepped : step cfg s action = some s') : ChainInvariant cfg s' := by
  cases action with
  | instantiateDomain =>
    cases stepped
    exact inv.instantiateDomain injective distinct deep
  | submitBundle d o r consensusChecks missedUpgrade =>
    obtain ⟨verified, s₁, info, accepted, same⟩ :=
      submitBundle_eq_ok (Except.toOption_eq_some.mp stepped)
    exact (inv.acceptReceipt injective deep verified accepted).of_sameTree same
  | submitReceipt d o r consensusChecks =>
    obtain ⟨verified, info, accepted⟩ := submitReceipt_eq_ok (Except.toOption_eq_some.mp stepped)
    exact inv.acceptReceipt injective deep verified accepted
  | submitFraudProof d badReceiptHash =>
    exact inv.submitFraudProof (Except.toOption_eq_some.mp stepped)
  | finalizeBlock =>
    cases stepped
    exact inv.of_sameTree (finalizeBlock_sameTree s)

/-- Every reachable state keeps the invariant. -/
theorem Reachable.chainInvariant (reachable : Reachable cfg s) : ChainInvariant cfg s := by
  induction reachable with
  | empty => exact ChainInvariant.empty
  | step action _ stepped inv => exact inv.step injective distinct deep stepped

end Run

end Steps

/-- `prune_receipt` succeeds at every place of a tree with provenance. -/
theorem Provenance.pruneReceipt_ok [DecidableEq H] {s : State H} {owner : H → Option ℕ}
    (p : Provenance cfg s owner) (d n : ℕ) : ∃ result, pruneReceipt s d n = .ok result := by
  cases pruned : pruneReceipt s d n with
  | ok result => exact ⟨result, rfl⟩
  | error e =>
    -- it fails only at a hash without a node, and every hash in a row has one
    obtain ⟨-, h, held, noNode⟩ := pruneReceipt_eq_error pruned
    obtain ⟨-, node, stored, -⟩ := p.stored d n h held
    rw [noNode] at stored
    cases stored

/-- In every reachable state, each domain's row is one linked chain: (a) every
hash in it has its node, numbered by its place, so pruning never fails;
(b) above the latest confirmed block up to the head every place holds a
receipt whose parent is the hash held just below, where that is still held;
(c) the head is between the latest confirmed block and the pruning depth above
it, and nothing is held at or below the latest confirmed block but the genesis
receipt before any block is confirmed. -/
theorem block_tree_single_linked_chain [DecidableEq H] (injective : Function.Injective cfg.hash)
    (distinct : Function.Injective cfg.genesisStateRoot) (deep : 0 < cfg.blockTreePruningDepth)
    {s : State H} (reachable : Reachable cfg s) (d : ℕ) :
    ((∀ n h, s.blockTree d n = some h →
        ∃ node, s.blockTreeNodes h = some node ∧ node.executionReceipt.domainBlockNumber = n) ∧
      ∀ n, ∃ result, pruneReceipt s d n = .ok result) ∧
    (∀ n, s.latestConfirmedDomainBlockNumber d < n → n ≤ s.headReceiptNumber d →
      (∃ h, s.blockTree d n = some h) ∧
      ∀ h node parentHash, s.blockTree d n = some h → s.blockTreeNodes h = some node →
        s.blockTree d (n - 1) = some parentHash →
          node.executionReceipt.parentDomainBlockReceiptHash = parentHash) ∧
    (s.latestConfirmedDomainBlockNumber d ≤ s.headReceiptNumber d ∧
      s.headReceiptNumber d ≤ s.latestConfirmedDomainBlockNumber d + cfg.blockTreePruningDepth ∧
      ∀ n h, s.blockTree d n = some h →
        s.latestConfirmedDomainBlockNumber d < n ∨
          (n = 0 ∧ s.latestConfirmedDomainBlockNumber d = 0)) := by
  have inv := reachable.chainInvariant injective distinct deep
  obtain ⟨owner, p⟩ := inv.provenance
  have w := inv.window d
  refine ⟨⟨fun n h held => (p.stored d n h held).2, p.pruneReceipt_ok d⟩, ?linked,
    w.lowBelowHigh, w.highWithinDepth, w.above⟩
  intro n above below
  refine ⟨Option.isSome_iff_exists.mp (w.present n above below), ?_⟩
  intro h node parentHash held stored under
  -- the node's receipt is the one held at `n`: the node is keyed by its hash
  have heldReceipt : s.blockTree d n = some (cfg.hash node.executionReceipt) := by
    rw [p.keyed h node stored]
    exact held
  exact w.linked n above below node.executionReceipt heldReceipt parentHash under

/-- Receipts over a countable hash type, encoded field by field. -/
instance {H : Type} [Encodable H] : Encodable (ExecutionReceipt H) :=
  Encodable.ofLeftInverse
    (fun r => (r.domainBlockNumber, r.domainBlockHash, r.domainBlockExtrinsicRoot,
      r.parentDomainBlockReceiptHash, r.consensusBlockNumber, r.consensusBlockHash,
      r.finalStateRoot, r.executionTrace, r.executionTraceRoot))
    (fun ⟨n, blockHash, extrinsicRoot, parentHash, consensusNumber, consensusHash, stateRoot,
      trace, traceRoot⟩ =>
      ⟨n, blockHash, extrinsicRoot, parentHash, consensusNumber, consensusHash, stateRoot, trace,
        traceRoot⟩)
    (fun _ => rfl)

/-- Hashes in `ℕ`, a receipt hashed by its encoding, a domain's genesis state
root its id, and the pruning depth of the pallet's tests. -/
def encodedConfig : BlockTreeConfig ℕ where
  blockTreePruningDepth := 16
  hash := Encodable.encode
  genesisStateRoot := id
  genesisDomainBlockHash := id
  emptyExtrinsicRoot := 0

/-- `encodedConfig` with a pruning depth of two, so that a short run confirms
a block. -/
def shallowConfig : BlockTreeConfig ℕ := { encodedConfig with blockTreePruningDepth := 2 }

/-- A receipt for the block after `parent`'s, with a two-root trace. -/
def childReceipt (parent : ExecutionReceipt ℕ) (blockHash : ℕ) : ExecutionReceipt ℕ where
  domainBlockNumber := parent.domainBlockNumber + 1
  domainBlockHash := blockHash
  domainBlockExtrinsicRoot := 0
  parentDomainBlockReceiptHash := shallowConfig.hash parent
  consensusBlockNumber := parent.consensusBlockNumber + 1
  consensusBlockHash := 0
  finalStateRoot := 1
  executionTrace := [0, 1]
  executionTraceRoot := 0

/-- Domain `0` is instantiated and gets receipts for blocks `1` and `2` in two
consensus blocks, which confirms the genesis block; a fraud proof then prunes
block `2`, and another operator's receipt for a different block `2` becomes
the head. -/
def revertedChain : List (Action ℕ) :=
  let first := childReceipt (shallowConfig.genesisReceipt 0) 1
  [.instantiateDomain,
   .submitBundle 0 0 first (.ok ()) 0, .finalizeBlock,
   .submitBundle 0 0 (childReceipt first 2) (.ok ()) 0, .finalizeBlock,
   .submitFraudProof 0 (shallowConfig.hash (childReceipt first 2)),
   .submitBundle 0 1 (childReceipt first 3) (.ok ()) 0]

/-- After `revertedChain` the genesis receipt is confirmed and pruned, blocks
`1` and `2` are held and linked, and the head is `2`. -/
theorem block_tree_single_linked_chain_reverted :
    ∃ s, Reachable shallowConfig s ∧
    s.headReceiptNumber 0 = 2 ∧ (s.latestConfirmedDomainExecutionReceipt 0).isSome = true ∧
    s.blockTree 0 0 = none ∧ (s.blockTree 0 1).isSome = true ∧ (s.blockTree 0 2).isSome = true ∧
    ((∀ n h, s.blockTree 0 n = some h →
        ∃ node, s.blockTreeNodes h = some node ∧ node.executionReceipt.domainBlockNumber = n) ∧
      ∀ n, ∃ result, pruneReceipt s 0 n = .ok result) ∧
    (∀ n, s.latestConfirmedDomainBlockNumber 0 < n → n ≤ s.headReceiptNumber 0 →
      (∃ h, s.blockTree 0 n = some h) ∧
      ∀ h node parentHash, s.blockTree 0 n = some h → s.blockTreeNodes h = some node →
        s.blockTree 0 (n - 1) = some parentHash →
          node.executionReceipt.parentDomainBlockReceiptHash = parentHash) ∧
    (s.latestConfirmedDomainBlockNumber 0 ≤ s.headReceiptNumber 0 ∧
      s.headReceiptNumber 0 ≤
        s.latestConfirmedDomainBlockNumber 0 + shallowConfig.blockTreePruningDepth ∧
      ∀ n h, s.blockTree 0 n = some h →
        s.latestConfirmedDomainBlockNumber 0 < n ∨
          (n = 0 ∧ s.latestConfirmedDomainBlockNumber 0 = 0)) := by
  obtain ⟨s, reachable, head, confirmed, pruned, first, second⟩ :=
    exists_reachable_of_run shallowConfig revertedChain
      (P := fun s => s.headReceiptNumber 0 = 2 ∧
        (s.latestConfirmedDomainExecutionReceipt 0).isSome = true ∧ s.blockTree 0 0 = none ∧
        (s.blockTree 0 1).isSome = true ∧ (s.blockTree 0 2).isSome = true) (by decide +kernel)
  exact ⟨s, reachable, head, confirmed, pruned, first, second,
    @block_tree_single_linked_chain ℕ shallowConfig _ _ Encodable.encode_injective
      (fun _ _ same => same) (by decide) s reachable 0⟩

end Subspace.BlockTree
