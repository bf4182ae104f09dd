import PaymentNetwork.Proofs.Chain.Release

/-!
# The Order of Delivery

In which order events come out of the line, if the ledger is in order.

On such a ledger every settlement has its closing before it, and the node hears of a block
before the block is handed out. Then nothing is ever held: when a settlement is deep enough,
so is its closing, which has arrived and stands before it in the line, or was handed out.
Each release takes a first part of the line as it is, and what is left is younger than all
of it. So the parts put together are one stable sort of what arrived, and how the arrivals
and the releases took turns cannot be seen in it.

## Main definitions

* `WellClosed`: Every settlement is the only one of its channel, and follows its closing.
* `Confirmation.isDeep`: Is an event deep enough at the last release?
* `Confirmation.Punctual`: No event arrives that is deep enough already, and the heights of
  the releases do not decrease.
* `Confirmation.DeliveryLaw`: What such a history keeps to.

## Theorems

* `Confirmation.filter_insertEvent`: The line is filled in the order of arrival.
* `Confirmation.sweepAll_free`: If nothing is held, a release hands out everything as it is.
* `Confirmation.Delivered.closed_before`: The closing of a settlement comes before it.
* `Confirmation.Delivered.released_eq`: What was handed out is a stable sort.
* `Confirmation.run_deliveryLaw`: The law for every such history.
-/

namespace PaymentNetwork

/-- Every settlement is the only one of its channel, and the channel was closed in an
    earlier block, or in the same block by an event that arrived before. -/
structure WellClosed (events : List ChainEvent) : Prop where
  once : ∀ c, events.countP (ChainEvent.settles c) ≤ 1
  closed : ∀ before e after c, events = before ++ e :: after → e.settles c = true →
    (∃ f ∈ before, f.closes c = true ∧ f.block ≤ e.block) ∨
    (∃ f ∈ after, f.closes c = true ∧ f.block < e.block)

theorem not_settles_of_closes {e : ChainEvent} {c d : ChannelId} (h : e.closes c = true) :
    e.settles d = false := by
  cases e with
  | channelClosed => rfl
  | _ => cases h

/-- A list has one place at most for what occurs once at most in it. -/
theorem eq_of_split_of_countP_le {α : Type} {p : α → Bool} {xs ys xs' ys' : List α} {a a' : α}
    (h : xs ++ a :: ys = xs' ++ a' :: ys') (hcount : (xs ++ a :: ys).countP p ≤ 1)
    (ha : p a = true) (ha' : p a' = true) : xs = xs' := by
  induction xs generalizing xs' with
  | nil =>
      cases xs' with
      | nil => rfl
      | cons x xs' =>
          have htail : ys = xs' ++ a' :: ys' := (List.cons.inj h).2
          rw [htail] at hcount
          simp only [List.nil_append, List.countP_cons, List.countP_append, ha, ha', if_true]
            at hcount
          omega
  | cons x xs ih =>
      cases xs' with
      | nil =>
          obtain ⟨rfl, -⟩ := List.cons.inj h
          simp only [List.cons_append, List.countP_cons, List.countP_append, ha, ha', if_true]
            at hcount
          omega
      | cons x' xs' =>
          obtain ⟨rfl, htail⟩ := List.cons.inj h
          rw [List.cons_append, List.countP_cons] at hcount
          exact congrArg (x :: ·) (ih htail (by omega))

namespace ConfirmationInput

/-- The height of the release, if it is one. -/
def height? : ConfirmationInput → Option Height
  | arrive _ => none
  | release height => some height

/-- The height of the last release. -/
def lastHeight? (last? : Option Height) (inputs : List ConfirmationInput) : Option Height :=
  inputs.foldl (fun last? i => i.height?.or last?) last?

end ConfirmationInput

namespace Confirmation

/-- Is an event deep enough at the last release, if there was one? -/
def isDeep (confirm : Height) : Option Height → ChainEvent → Bool
  | none, _ => false
  | some height, e => decide (e.block.satAdd confirm ≤ height)

/-- No event arrives that was deep enough at the last release, and the heights of the
    releases do not decrease. -/
def Punctual (confirm : Height) : Option Height → List ConfirmationInput → Prop
  | _, [] => True
  | last?, .arrive e :: rest => isDeep confirm last? e = false ∧ Punctual confirm last? rest
  | last?, .release height :: rest =>
    (∀ previous, last? = some previous → previous ≤ height) ∧ Punctual confirm (some height) rest

section Depth

variable {confirm : Height} {last? : Option Height} {height : Height} {e f : ChainEvent}

theorem isDeep_of_block_le (hfe : f.block ≤ e.block) (h : isDeep confirm last? e = true) :
    isDeep confirm last? f = true := by
  cases last? with
  | none => cases h
  | some height =>
      simp only [isDeep, decide_eq_true_eq, Word.le_iff, Word.val_satAdd] at hfe h ⊢
      omega

theorem isDeep_of_height_le (hlast : ∀ previous, last? = some previous → previous ≤ height)
    (h : isDeep confirm last? e = true) : isDeep confirm (some height) e = true := by
  cases last? with
  | none => cases h
  | some previous =>
      have hle := hlast previous rfl
      simp only [isDeep, decide_eq_true_eq, Word.le_iff, Word.val_satAdd] at hle h ⊢
      omega

/-- What is deep enough stands before what is not. -/
theorem block_le_of_isDeep (hf : isDeep confirm last? f = true)
    (he : isDeep confirm last? e = false) : f.block ≤ e.block := by
  by_contra hnot
  rw [isDeep_of_block_le (Nat.le_of_lt (Word.not_le.mp hnot)) hf] at he
  cases he

theorem isDeep_eq_isReady {q : Confirmation} (e : ChainEvent) :
    isDeep q.confirmBlocks (some height) e = q.isReady e.block height := rfl

/-- What arrives later was not deep enough before. -/
theorem not_isDeep_of_later {rest : List ConfirmationInput}
    (h : Punctual confirm (some height) rest) :
    ∀ e ∈ ConfirmationInput.arrivals rest, isDeep confirm (some height) e = false := by
  induction rest generalizing height with
  | nil => exact fun _ he => nomatch he
  | cons i rest ih =>
      cases i with
      | arrive f =>
          intro e he
          rcases List.mem_cons.mp he with rfl | he
          · exact h.1
          · exact ih h.2 e he
      | release next =>
          intro e he
          have hlater := ih h.2 e he
          rw [Bool.eq_false_iff] at hlater ⊢
          exact fun hdeep => hlater (isDeep_of_height_le h.1 hdeep)

end Depth

/-! ### The line -/

/-- An event is filed behind all others of its block. -/
theorem filter_insertEvent {e : ChainEvent} {line : List ChainEvent}
    (h : OrderedOn ChainEvent.block line) (b : Height) :
    (insertEvent e line).filter (fun f => f.block = b)
      = line.filter (fun f => f.block = b) ++ [e].filter (fun f => f.block = b) := by
  induction line with
  | nil => rfl
  | cons f rest ih =>
      have hrest := List.pairwise_cons.mp h
      unfold insertEvent
      split
      · simp only [List.filter_cons, ih hrest.2]
        split <;> rfl
      · rename_i hef
        by_cases he : e.block = b
        · -- All that stands behind the event belongs to later blocks.
          have hnone : (f :: rest).filter (fun f => f.block = b) = [] := by
            refine List.filter_eq_nil_iff.mpr (fun g hg => ?_)
            have hlt : e.block < f.block := Word.not_le.mp hef
            have hfg : f.block ≤ g.block := by
              rcases List.mem_cons.mp hg with rfl | hg
              · exact Nat.le_refl _
              · exact isLE_compare_iff.mp (hrest.1 g hg)
            have hne : g.block ≠ b := by
              rintro rfl
              exact absurd (Nat.lt_of_lt_of_le hlt hfg) (by rw [he]; exact Nat.lt_irrefl _)
            simpa using hne
          rw [List.filter_cons_of_pos (by simpa using he), hnone]
          simp [he]
        · rw [List.filter_cons_of_neg (by simpa using he)]
          simp [he]

section Rounds

variable {log events : List ChainEvent}

/-- If nothing is held in its turn, a round hands out everything as it stands. -/
theorem sweep_free (q : Confirmation) (height : Height) (log : List ChainEvent)
    (h : Follows (fun before e => isHeld (closedBy (log ++ before)) e = false) events) :
    (q.sweep height (closedBy log) events).released = events ∧
      (q.sweep height (closedBy log) events).kept = [] := by
  induction events generalizing log with
  | nil => exact ⟨rfl, rfl⟩
  | cons e rest ih =>
      have hfree : isHeld (closedBy log) e = false := by
        simpa using h [] e rest rfl
      have hrest := ih (log ++ [e]) (fun before f after heq => by
        simpa using h (e :: before) f after (by rw [heq]; rfl))
      rw [closedBy_concat] at hrest
      unfold sweep
      rw [if_neg (by rw [hfree]; exact Bool.false_ne_true)]
      exact ⟨congrArg (e :: ·) hrest.1, hrest.2⟩

/-- One round is enough then. -/
theorem sweepAll_free (q : Confirmation) (height : Height)
    (h : Follows (fun before e => isHeld (closedBy (log ++ before)) e = false) events) :
    (q.sweepAll height (closedBy log) events).released = events ∧
      (q.sweepAll height (closedBy log) events).kept = [] := by
  obtain ⟨hreleased, hkept⟩ := sweep_free q height log h
  have hempty : ∀ closed, (q.sweepAll height closed []).released = [] ∧
      (q.sweepAll height closed []).kept = [] := by
    intro closed
    rw [sweepAll]
    exact ⟨rfl, rfl⟩
  rw [sweepAll]
  dsimp only
  split
  · exact ⟨hreleased, hkept⟩
  · rw [hkept, hreleased, (hempty _).1, List.append_nil]
    exact ⟨rfl, (hempty _).2⟩

end Rounds

/-! ### Histories -/

/-- What was handed out until now is the first part of what arrived, in the order of the
    blocks and then of arrival. -/
structure Delivered (confirm : Height) (last? : Option Height)
    (arrived released pending : List ChainEvent) : Prop where
  ordered : OrderedOn ChainEvent.block released
  blocks : ∀ b, released.filter (fun e => e.block = b) ++ pending.filter (fun e => e.block = b)
    = arrived.filter (fun e => e.block = b)
  deep : ∀ e ∈ released, isDeep confirm last? e = true
  waiting : ∀ e ∈ pending, isDeep confirm last? e = false

section Delivered

variable {confirm : Height} {last? : Option Height} {arrived released pending : List ChainEvent}

/-- What was handed out is the stable sort of what is deep enough. -/
theorem Delivered.released_eq (h : Delivered confirm last? arrived released pending) :
    released = sortOn ChainEvent.block (arrived.filter (isDeep confirm last?)) := by
  refine eq_sortOn_iff.mpr ⟨h.ordered, fun b => ?_⟩
  have hswap : (arrived.filter (isDeep confirm last?)).filter (fun e => e.block = b)
      = (arrived.filter (fun e => e.block = b)).filter (isDeep confirm last?) := by
    rw [List.filter_filter, List.filter_filter]
    exact List.filter_congr (fun e _ => Bool.and_comm _ _)
  rw [hswap, ← h.blocks b, List.filter_append]
  have hdeep : (released.filter (fun e => e.block = b)).filter (isDeep confirm last?)
      = released.filter (fun e => e.block = b) :=
    List.filter_eq_self.mpr (fun e he => h.deep e ((List.mem_filter.mp he).1))
  have hwaiting : (pending.filter (fun e => e.block = b)).filter (isDeep confirm last?) = [] :=
    List.filter_eq_nil_iff.mpr (fun e he => by
      rw [h.waiting e ((List.mem_filter.mp he).1)]
      exact Bool.false_ne_true)
  rw [hdeep, hwaiting, List.append_nil]

theorem Delivered.arrive (h : Delivered confirm last? arrived released pending)
    (hordered : OrderedOn ChainEvent.block pending) {e : ChainEvent}
    (he : isDeep confirm last? e = false) :
    Delivered confirm last? (arrived ++ [e]) released (insertEvent e pending) where
  ordered := h.ordered
  blocks := by
    intro b
    rw [filter_insertEvent hordered, ← List.append_assoc, h.blocks, List.filter_append]
  deep := h.deep
  waiting := by
    intro f hf
    rcases List.mem_cons.mp ((insertEvent_perm e pending).mem_iff.mp hf) with rfl | hf
    · exact he
    · exact h.waiting f hf

/-- A first part of the line was handed out, all that is deep enough. -/
theorem Delivered.release {first rest : List ChainEvent} {height : Height}
    (h : Delivered confirm last? arrived released pending)
    (hordered : OrderedOn ChainEvent.block pending) (hline : first ++ rest = pending)
    (hlast : ∀ previous, last? = some previous → previous ≤ height)
    (hfirst : ∀ e ∈ first, isDeep confirm (some height) e = true)
    (hrest : ∀ e ∈ rest, isDeep confirm (some height) e = false) :
    Delivered confirm (some height) arrived (released ++ first) rest where
  ordered := by
    subst hline
    refine List.pairwise_append.mpr ⟨h.ordered, (List.pairwise_append.mp hordered).1, ?_⟩
    intro e he f hf
    have hf' := h.waiting f (List.mem_append_left rest hf)
    exact isLE_compare_iff.mpr (block_le_of_isDeep (h.deep e he) hf')
  blocks := by
    intro b
    rw [List.filter_append, List.append_assoc, ← List.filter_append, hline, h.blocks]
  deep := by
    intro e he
    rcases List.mem_append.mp he with he | he
    · exact isDeep_of_height_le hlast (h.deep e he)
    · exact hfirst e he
  waiting := hrest

/-- A closing that came no later than a settlement deep enough was handed out or stands before
    it in the line, or it stands behind it in the same block. -/
theorem closing_place {before after rest : List ChainEvent} {e f : ChainEvent} {height : Height}
    {c : ChannelId} (hordered : OrderedOn ChainEvent.block (before ++ e :: after ++ rest))
    (hmem : f ∈ released ++ (before ++ e :: after ++ rest))
    (hdeep : isDeep confirm (some height) e = true)
    (hrest : ∀ f ∈ rest, isDeep confirm (some height) f = false)
    (hsettles : e.settles c = true) (hcloses : f.closes c = true) (hle : f.block ≤ e.block) :
    f ∈ released ++ before ∨ (f ∈ after ∧ f.block = e.block) := by
  -- What stands behind the settlement in the line does not belong to an earlier block.
  have hbehind : ∀ g ∈ after, e.block ≤ g.block := by
    intro g hg
    have hline : OrderedOn ChainEvent.block (before ++ e :: (after ++ rest)) := by
      simpa using hordered
    have htail := (List.pairwise_append.mp hline).2.1
    exact isLE_compare_iff.mp ((List.pairwise_cons.mp htail).1 g (List.mem_append_left rest hg))
  have hfe : f ≠ e := by
    rintro rfl
    rw [not_settles_of_closes hcloses] at hsettles
    cases hsettles
  simp only [List.append_assoc, List.cons_append, List.mem_append, List.mem_cons] at hmem ⊢
  rcases hmem with hmem | hmem | hmem | hmem | hmem
  · exact Or.inl (Or.inl hmem)
  · exact Or.inl (Or.inr hmem)
  · exact absurd hmem hfe
  · exact Or.inr ⟨hmem, Word.ext (Nat.le_antisymm hle (hbehind f hmem))⟩
  · have hfdeep := isDeep_of_block_le hle hdeep
    rw [hrest f hmem] at hfdeep
    cases hfdeep

/-- What arrived before the only settlement of a channel, and in the same block, is what was
    handed out or stands before it in the line. -/
theorem Delivered.filter_front {front back before after : List ChainEvent} {e : ChainEvent}
    {c : ChannelId}
    (h : Delivered confirm last? (front ++ e :: back) released (before ++ e :: after))
    (honce : (front ++ e :: back).countP (ChainEvent.settles c) ≤ 1)
    (hsettles : e.settles c = true) :
    front.filter (fun f => f.block = e.block)
      = (released ++ before).filter (fun f => f.block = e.block) := by
  have hsplit := (h.blocks e.block).symm
  simp only [List.filter_append, List.filter_cons, decide_true, if_true] at hsplit
  rw [List.filter_append]
  -- Both sides are one list, in which the settlement has one place only.
  refine eq_of_split_of_countP_le (p := ChainEvent.settles c)
    (hsplit.trans (List.append_assoc _ _ _).symm) ?_ hsettles hsettles
  have hsub : (front.filter (fun f => f.block = e.block) ++
      e :: back.filter (fun f => f.block = e.block)).Sublist (front ++ e :: back) :=
    List.filter_sublist.append (List.filter_sublist.cons_cons e)
  exact Nat.le_trans hsub.countP_le honce

/-- A settlement that is deep enough finds its closing among what was handed out and what
    stands before it in the line. -/
theorem Delivered.closed_before {later before after rest : List ChainEvent} {e : ChainEvent}
    {height : Height} {c : ChannelId}
    (h : Delivered confirm last? arrived released pending)
    (hclosed : WellClosed (arrived ++ later)) (hperm : arrived.Perm (released ++ pending))
    (hordered : OrderedOn ChainEvent.block pending)
    (hline : before ++ e :: after ++ rest = pending)
    (hdeep : isDeep confirm (some height) e = true)
    (hrest : ∀ f ∈ rest, isDeep confirm (some height) f = false)
    (hlater : ∀ f ∈ later, isDeep confirm (some height) f = false)
    (hsettles : e.settles c = true) :
    ∃ f ∈ released ++ before, f.closes c = true := by
  subst hline
  have hmem : e ∈ arrived := hperm.mem_iff.mpr (by simp)
  obtain ⟨front, back, harrived⟩ := List.append_of_mem hmem
  have hplace : ∀ f ∈ arrived, f.closes c = true → f.block ≤ e.block →
      f ∈ released ++ before ∨ (f ∈ after ∧ f.block = e.block) := fun f hf hcloses hle =>
    closing_place hordered (hperm.mem_iff.mp hf) hdeep hrest hsettles hcloses hle
  have hblock : front.filter (fun f => f.block = e.block)
      = (released ++ before).filter (fun f => f.block = e.block) := by
    have honce := hclosed.once c
    rw [List.countP_append] at honce
    rw [harrived, List.append_assoc, List.cons_append] at h
    exact h.filter_front (harrived ▸ Nat.le_of_add_right_le honce) hsettles
  -- A closing that arrived before the settlement cannot stand behind it in the line.
  have hfront : ∀ f ∈ front, f.closes c = true → f.block ≤ e.block → f ∈ released ++ before := by
    intro f hf hcloses hle
    rcases hplace f (by rw [harrived]; exact List.mem_append_left _ hf) hcloses hle with
      hmem | ⟨-, hb⟩
    · exact hmem
    · have hmem : f ∈ front.filter (fun f => f.block = e.block) := by simp [hf, hb]
      rw [hblock] at hmem
      exact (List.mem_filter.mp hmem).1
  have hevents : arrived ++ later = front ++ e :: (back ++ later) := by simp [harrived]
  rcases hclosed.closed front e (back ++ later) c hevents hsettles with
    ⟨f, hf, hcloses, hle⟩ | ⟨f, hf, hcloses, hlt⟩
  · exact ⟨f, hfront f hf hcloses hle, hcloses⟩
  · have hle : f.block ≤ e.block := Nat.le_of_lt hlt
    rcases List.mem_append.mp hf with hf | hf
    · rcases hplace f (by rw [harrived]; simp [hf]) hcloses hle with hmem | ⟨-, hb⟩
      · exact ⟨f, hmem, hcloses⟩
      · rw [hb] at hlt
        exact absurd hlt (Nat.lt_irrefl _)
    · have hfdeep := isDeep_of_block_le hle hdeep
      rw [hlater f hf] at hfdeep
      cases hfdeep

/-- So it is not held. -/
theorem Delivered.not_held {later before after rest : List ChainEvent} {e : ChainEvent}
    {height : Height}
    (h : Delivered confirm last? arrived released pending)
    (hclosed : WellClosed (arrived ++ later)) (hperm : arrived.Perm (released ++ pending))
    (hordered : OrderedOn ChainEvent.block pending)
    (hline : before ++ e :: after ++ rest = pending)
    (hdeep : isDeep confirm (some height) e = true)
    (hrest : ∀ f ∈ rest, isDeep confirm (some height) f = false)
    (hlater : ∀ f ∈ later, isDeep confirm (some height) f = false) :
    isHeld (closedBy (released ++ before)) e = false := by
  rw [Bool.eq_false_iff]
  intro hheld
  obtain ⟨c, hsettles, hopen⟩ := isHeld_eq_true_iff.mp hheld
  obtain ⟨f, hf, hcloses⟩ :=
    h.closed_before hclosed hperm hordered hline hdeep hrest hlater hsettles
  -- It is the only settlement, so none came since the closing.
  have hnone : (released ++ before).countP (ChainEvent.settles c) = 0 := by
    have honce := hclosed.once c
    rw [List.countP_append, hperm.countP_eq, ← hline] at honce
    simp only [List.countP_append, List.countP_cons, hsettles, if_true] at honce ⊢
    omega
  obtain ⟨first, since, hsplit⟩ := List.append_of_mem hf
  have hawaits : AwaitsSettlement (released ++ before) c := by
    refine ⟨first, f, since, hsplit, hcloses, fun g hg => ?_⟩
    rw [Bool.eq_false_iff]
    exact List.countP_eq_zero.mp hnone g (by rw [hsplit]; simp [hg])
  rw [← contains_closedBy, hopen] at hawaits
  cases hawaits

end Delivered

section Histories

variable {confirm hold : Height} {last? : Option Height} {arrived : List ChainEvent}
  {log : List (Height × ChainEvent)} {q : Confirmation}

/-- The line is in order, so behind what is deep enough nothing else is. -/
theorem Accounts.not_isDeep_of_waiting (haccounts : Accounts confirm hold arrived log q)
    (height : Height) : ∀ e ∈ q.pending.dropWhile (isDeep confirm (some height)),
      isDeep confirm (some height) e = false := by
  rw [← haccounts.confirmBlocks]
  exact not_ready_of_mem_dropWhile haccounts.ordered

/-- A release hands out the first part of the line as it stands, and leaves the rest. -/
theorem Accounts.release_free {later : List ChainEvent} {height : Height}
    (haccounts : Accounts confirm hold arrived log q)
    (h : Delivered confirm last? arrived (log.map Prod.snd) q.pending)
    (hclosed : WellClosed (arrived ++ later))
    (hlater : ∀ f ∈ later, isDeep confirm (some height) f = false) :
    (q.release height).2.1 = q.pending.takeWhile (isDeep confirm (some height)) ∧
      (q.release height).1.pending = q.pending.dropWhile (isDeep confirm (some height)) := by
  have hready : (fun e : ChainEvent => q.isReady e.block height)
      = isDeep confirm (some height) := by
    funext e
    rw [← isDeep_eq_isReady, haccounts.confirmBlocks]
  have hline := List.takeWhile_append_dropWhile (p := isDeep confirm (some height))
    (l := q.pending)
  have hfree : Follows (fun before e => isHeld (closedBy (log.map Prod.snd ++ before)) e = false)
      (q.pending.takeWhile (isDeep confirm (some height))) := by
    intro before e after hsplit
    rw [hsplit] at hline
    refine h.not_held hclosed haccounts.complete haccounts.ordered hline ?_
      (haccounts.not_isDeep_of_waiting height) hlater
    have hmem : e ∈ q.pending.takeWhile (isDeep confirm (some height)) := by simp [hsplit]
    exact List.all_eq_true.mp List.all_takeWhile e hmem
  obtain ⟨hreleased, hkept⟩ := sweepAll_free q height hfree
  rw [← haccounts.closed] at hreleased hkept
  unfold Confirmation.release
  dsimp only
  rw [hready]
  exact ⟨hreleased, by rw [hkept, List.nil_append]⟩

theorem Delivered.run {inputs : List ConfirmationInput}
    (h : Delivered confirm last? arrived (log.map Prod.snd) q.pending)
    (haccounts : Accounts confirm hold arrived log q)
    (hclosed : WellClosed (arrived ++ ConfirmationInput.arrivals inputs))
    (hpunctual : Punctual confirm last? inputs) :
    Delivered confirm (ConfirmationInput.lastHeight? last? inputs)
      (arrived ++ ConfirmationInput.arrivals inputs) ((log ++ q.log inputs).map Prod.snd)
      (q.run inputs).pending := by
  -- The events that are still to come belong to the invariant: a closing that is missing now
  -- could be one of them, were they not too young for that.
  induction inputs generalizing last? arrived log q with
  | nil =>
      rw [← List.append_nil arrived, ← List.append_nil log] at h
      exact h
  | cons i rest ih =>
      have hnext := haccounts.after i
      have harrivals : arrived ++ ConfirmationInput.arrivals (i :: rest)
          = arrived ++ ConfirmationInput.arrivals [i] ++ ConfirmationInput.arrivals rest := by
        rw [List.append_assoc, ← ConfirmationInput.arrivals_append]
        rfl
      have hlog : log ++ q.log (i :: rest) = log ++ q.handOut i ++ (q.after i).log rest :=
        (List.append_assoc _ _ _).symm
      rw [harrivals] at hclosed ⊢
      rw [hlog]
      cases i with
      | arrive e =>
          obtain ⟨hlate, hpunctual⟩ := hpunctual
          refine ih ?_ hnext hclosed hpunctual
          have harrive := h.arrive haccounts.ordered hlate
          rw [← List.append_nil log] at harrive
          exact harrive
      | release height =>
          obtain ⟨hlast, hpunctual⟩ := hpunctual
          have harrived : arrived ++ ConfirmationInput.arrivals [.release height] = arrived :=
            List.append_nil arrived
          rw [harrived] at hclosed hnext ⊢
          obtain ⟨hout, hpending⟩ :=
            haccounts.release_free h hclosed (not_isDeep_of_later hpunctual)
          have hdelivered := h.release haccounts.ordered List.takeWhile_append_dropWhile hlast
            (fun e he => List.all_eq_true.mp List.all_takeWhile e he)
            (haccounts.not_isDeep_of_waiting height)
          rw [← hpending] at hdelivered
          have hlog : (log ++ q.handOut (.release height)).map Prod.snd
              = log.map Prod.snd ++ q.pending.takeWhile (isDeep confirm (some height)) := by
            rw [List.map_append, ← hout]
            exact congrArg _ (map_snd_map_mk height _)
          rw [← hlog] at hdelivered
          exact ih hdelivered hnext hclosed hpunctual

end Histories

/-- What a history keeps to, if the ledger is in order and no event is late. -/
structure DeliveryLaw (confirm hold : Height) (inputs : List ConfirmationInput) : Prop where
  /-- What is handed out are the events that are deep enough at the last release, by block and
      then by arrival. -/
  sorted : (fresh confirm hold).released inputs = sortOn ChainEvent.block
    ((ConfirmationInput.arrivals inputs).filter
      (isDeep confirm (ConfirmationInput.lastHeight? none inputs)))
  /-- Other histories in which the same events arrive and that end with the same release hand
      out the same, even if a settlement may be held for longer or shorter. -/
  batching : ∀ hold' others, Punctual confirm none others →
    ConfirmationInput.arrivals others = ConfirmationInput.arrivals inputs →
    ConfirmationInput.lastHeight? none others = ConfirmationInput.lastHeight? none inputs →
    (fresh confirm hold').released others = (fresh confirm hold).released inputs

theorem released_eq_sortOn {confirm hold : Height} {inputs : List ConfirmationInput}
    (hclosed : WellClosed (ConfirmationInput.arrivals inputs))
    (hpunctual : Punctual confirm none inputs) :
    (fresh confirm hold).released inputs = sortOn ChainEvent.block
      ((ConfirmationInput.arrivals inputs).filter
        (isDeep confirm (ConfirmationInput.lastHeight? none inputs))) := by
  have hnothing : Delivered confirm none [] [] [] :=
    { ordered := List.Pairwise.nil
      blocks := fun _ => rfl
      deep := fun _ he => nomatch he
      waiting := fun _ he => nomatch he }
  exact (hnothing.run (accounts_fresh confirm hold) hclosed hpunctual).released_eq

/-- Every such history keeps to the law. -/
theorem run_deliveryLaw {confirm hold : Height} {inputs : List ConfirmationInput}
    (hclosed : WellClosed (ConfirmationInput.arrivals inputs))
    (hpunctual : Punctual confirm none inputs) : DeliveryLaw confirm hold inputs where
  sorted := released_eq_sortOn hclosed hpunctual
  batching := by
    intro hold' others hothers harrivals hlast
    rw [released_eq_sortOn (harrivals ▸ hclosed) hothers, released_eq_sortOn hclosed hpunctual,
      harrivals, hlast]

namespace LateClosing

/-- The settlement of a channel. -/
def settlement : ChainEvent := .channelSettled default default 12

/-- Its closing, two blocks before. -/
def closing : ChainEvent := .channelClosed default default default 10

/-- The settlement arrives first, and a release finds neither of them deep enough. -/
def history : List ConfirmationInput :=
  [.arrive settlement, .release 11, .arrive closing, .release 14]

theorem wellClosed_arrivals : WellClosed (ConfirmationInput.arrivals history) where
  once := by
    intro c
    have hclosing : closing.settles c = false := rfl
    change [settlement, closing].countP (ChainEvent.settles c) ≤ 1
    rw [List.countP_cons, List.countP_cons_of_neg (by simp [hclosing]), List.countP_nil]
    split <;> omega
  closed := by
    intro before e after c hsplit hsettles
    cases before with
    | nil =>
        obtain ⟨rfl, rfl⟩ := List.cons.inj hsplit
        have hc : default = c := by
          simpa [settlement, ChainEvent.settles, ChainEvent.isSettlement, ChainEvent.channelId?]
            using hsettles
        subst hc
        exact Or.inr ⟨closing, List.mem_singleton_self _, by decide, by decide⟩
    | cons f before =>
        have hrest : [closing] = before ++ e :: after := (List.cons.inj hsplit).2
        have he : e ∈ [closing] := by simp [hrest]
        rw [List.mem_singleton.mp he] at hsettles
        cases hsettles

theorem punctual_history : Punctual 2 none history :=
  ⟨rfl, (fun _ h => nomatch h), by decide, (fun _ h => Option.some.inj h ▸ by decide), trivial⟩

/-- The closing comes out first. -/
theorem released_history :
    WellClosed (ConfirmationInput.arrivals history) ∧ Punctual 2 none history ∧
      (fresh 2 8).released history = [closing, settlement] := by
  refine ⟨wellClosed_arrivals, punctual_history, ?_⟩
  rw [(run_deliveryLaw wellClosed_arrivals punctual_history).sorted]
  decide

end LateClosing

end Confirmation

end PaymentNetwork
