import PaymentNetwork.Proofs.Channel.History

/-!
# Consistency of Balance Proofs

A balance proof says what became of the locks of its sender.

The proof that an end carries is compared with the channel as it is: it names the
channel, and it sums up the locks that are pending. It is also compared with the
history of the channel, since the transferred amount is about locks that are gone.
`unlocked` collects them: an input shows a preimage, and what is compared are the
pending locks before and after it. So a lock that was removed, or that somebody
claimed on the ledger, is not in the list, and no lock is in it for the reason that
a balance proof says so.

The ledger may remove a lock without a new balance proof. After that the last
proof speaks of a lock that is not pending, and the statement excludes such events.

## Main definitions

* `Channel.unlocked`: The locks of one end that an input turned into a transferred
  amount, with the preimage shown for them.
* `Channel.issued`: The balance proof that an input put on one end.
* `ChannelEnd.Committed`: The balance proof of an end says what the end is.
* `Channel.Consistent`: So it is for both ends after a history, nonces go up, and
  refused inputs do nothing.

## Theorems

* `Channel.unlocked_cases`: An input unlocks nothing, or one lock.
* `Channel.issued_cases`: An input issues nothing, or one proof with a new nonce.
* `Channel.run_transferredAmount`: A transferred amount is a sum of unlocked locks.
* `Channel.run_consistent`: Balance proofs are consistent after every history in
  which the ledger claims no lock.
-/

namespace PaymentNetwork

/-- Of all that is in one list, only the additional thing is not in the other. -/
theorem filter_not_mem_of_perm_cons {α : Type} [DecidableEq α] {a : α} {xs ys : List α}
    (hnodup : xs.Nodup) (hperm : xs.Perm (a :: ys)) : xs.filter (fun x => x ∉ ys) = [a] := by
  -- Nothing is repeated in the longer list, so the thing is not in the shorter one.
  have hnotMem : a ∉ ys := (List.nodup_cons.mp (hperm.nodup_iff.mp hnodup)).1
  have hfilter : (a :: ys).filter (fun x => x ∉ ys) = [a] := by
    rw [List.filter_cons_of_pos (by simpa using hnotMem), List.filter_eq_nil_iff.mpr]
    intro x hx
    simpa using hx
  have hfiltered := hperm.filter (fun x => x ∉ ys)
  rw [hfilter] at hfiltered
  exact List.perm_singleton.mp hfiltered

namespace ChannelInput

/-- The preimage that the input shows for a lock of the end `s`. -/
def preimage? : Side → ChannelInput → Option Secret
  | .ours, create (.unlock _ secret) => some secret
  | .partner, accept (.unlock m) _ => some m.secret
  | _, _ => none

/-- Does the input tell of a lock that was claimed on the ledger? -/
def isLedgerClaim : ChannelInput → Bool
  | event (.channelUnlocked ..) => true
  | _ => false

theorem isLedgerClaim_of_endChange? {e : ChainEvent} {participant : Address} {k : SecretHash}
    (he : e.endChange? = some (participant, .removeLock k)) :
    (event e).isLedgerClaim = true := by
  cases e with
  | channelUnlocked => rfl
  | _ => cases he

theorem preimage?_of_shows_claimed {i : ChannelInput} {s : Side} {l : Lock}
    (hside : i.side? = some s) (hshows : i.Shows (.claimed l)) :
    ∃ secret, i.preimage? s = some secret ∧ hashSecret secret = l.secretHash := by
  cases i with
  | create r =>
      cases hside
      cases r with
      | transfer => exact hshows.elim
      | unlock paymentId secret => exact ⟨secret, rfl, hshows⟩
      | removal => exact hshows.elim
  | accept m now =>
      cases hside
      cases m with
      | transfer => exact hshows.elim
      | unlock m => exact ⟨m.secret, rfl, hshows⟩
      | removal => exact hshows.elim
  | event e => cases hside

theorem preimage?_of_shows_added {i : ChannelInput} {l : Lock} (s : Side)
    (hshows : i.Shows (.added l)) : i.preimage? s = none := by
  cases s <;> cases i with
  | create r => cases r <;> first | rfl | exact hshows.elim
  | accept m now => cases m <;> first | rfl | exact hshows.elim
  | event e => rfl

theorem preimage?_of_shows_removed {i : ChannelInput} {l : Lock} (s : Side)
    (hshows : i.Shows (.removed l)) : i.preimage? s = none := by
  cases s <;> cases i with
  | create r => cases r <;> first | rfl | exact hshows.elim
  | accept m now => cases m <;> first | rfl | exact hshows.elim
  | event e => rfl

theorem preimage?_event (e : ChainEvent) (s : Side) : (event e).preimage? s = none := by
  cases s <;> rfl

end ChannelInput

namespace ChannelEnd

/-- The balance proof of the end, if there is one, names the channel and sums up
    the pending locks. -/
structure Committed (channelId : ChannelId) (tokenNetwork : Address) (e : ChannelEnd) : Prop where
  channelId_eq : ∀ p, e.proof? = some p → p.channelId = channelId
  tokenNetwork_eq : ∀ p, e.proof? = some p → p.tokenNetwork = tokenNetwork
  locked : ∀ p, e.proof? = some p → p.lockedAmount.val = e.pendingTotal
  root : ∀ p, e.proof? = some p → p.locksroot = e.locksroot

theorem committed_of_proof? {channelId : ChannelId} {tokenNetwork : Address} {e : ChannelEnd}
    (h : e.proof? = none) : e.Committed channelId tokenNetwork := by
  refine ⟨?_, ?_, ?_, ?_⟩ <;> (rw [h]; exact nofun)

theorem Recommits.committed {channelId : ChannelId} {tokenNetwork : Address}
    {e other : ChannelEnd} {change : LockChange} {p : BalanceProof}
    (h : Recommits channelId tokenNetwork e other change p) :
    (e.recommit change p).Committed channelId tokenNetwork where
  channelId_eq q hq := by
    cases hq
    exact h.channelId_eq
  tokenNetwork_eq q hq := by
    cases hq
    exact h.tokenNetwork_eq
  locked q hq := by
    cases hq
    exact h.locked
  root q hq := by
    cases hq
    exact h.root

end ChannelEnd

namespace Channel

/-! ### What a history leaves behind -/

/-- The locks of one end that were pending before an input and are not after it. -/
def gone (s : Side) (c : Channel) (i : ChannelInput) : List Lock :=
  (c.endOf s).pendingLocks.values.filter fun l =>
    l ∉ ((c.after i).endOf s).pendingLocks.values

/-- The locks of one end that are gone after an input that shows a preimage, with
    the preimage. -/
def unlocked (s : Side) (c : Channel) (i : ChannelInput) : List (Secret × Lock) :=
  match i.preimage? s with
  | some secret => (c.gone s i).map fun l => (secret, l)
  | none => []

/-- The balance proof that an input put on one end, if it did. -/
def issued (s : Side) (c : Channel) (i : ChannelInput) : List BalanceProof :=
  if i.side? = some s then
    match c.respond i with
    | .ok (some m, _) => [m.balanceProof]
    | _ => []
  else []

theorem gone_of_pendingLocks_eq {c : Channel} {s : Side} {i : ChannelInput}
    (h : ((c.after i).endOf s).pendingLocks = (c.endOf s).pendingLocks) : gone s c i = [] := by
  rw [gone, h, List.filter_eq_nil_iff]
  intro l hl
  simpa using hl

theorem unlocked_of_preimage?_eq_none {c : Channel} {s : Side} {i : ChannelInput}
    (h : i.preimage? s = none) : unlocked s c i = [] := by
  rw [unlocked, h]

/-- The claimed lock is all that is gone after the input that claims it. -/
theorem Recommitted.gone_of_claimed {c : Channel} {i : ChannelInput} {s : Side}
    {m : ChannelMessage} {l : Lock} (hs : c.Sound) (h : c.Recommitted i s m (.claimed l)) :
    gone s c i = [l] := by
  have hl : (c.endOf s).pendingLocks.get? l.secretHash = some l := h.recommits.allowed
  rw [gone, h.after, endOf_withEnd_self]
  exact filter_not_mem_of_perm_cons (hs s).nodup (SortedMap.values_erase_perm hl)

/-- What one input unlocks at one end: nothing, or one lock whose hash the shown
    preimage has. -/
theorem unlocked_cases {c : Channel} (hs : c.Sound) (s : Side) (i : ChannelInput) :
    (unlocked s c i = [] ∧
      ((c.after i).endOf s).transferredAmount = (c.endOf s).transferredAmount) ∨
    (∃ secret l, unlocked s c i = [(secret, l)] ∧ hashSecret secret = l.secretHash ∧
      ((c.after i).endOf s).transferredAmount.val
        = (c.endOf s).transferredAmount.val + l.amount.val) := by
  rcases after_endOf hs i s with h | ⟨m, change, h⟩ | ⟨e, change, rfl, -, he, h⟩
  · refine Or.inl ⟨?_, by rw [h]⟩
    -- A preimage may have been shown, but to a channel that refused it.
    unfold unlocked
    split
    · rw [gone_of_pendingLocks_eq (by rw [h]), List.map_nil]
    · rfl
  · have htransferred := h.recommits.transferred
    rw [h.endOf_after, ChannelEnd.recommit_transferredAmount]
    cases change with
    | added l =>
        exact Or.inl ⟨unlocked_of_preimage?_eq_none
          (ChannelInput.preimage?_of_shows_added s h.input), Word.ext htransferred⟩
    | claimed l =>
        -- A claimed lock is the only one that comes with a preimage.
        rcases ChannelInput.preimage?_of_shows_claimed h.side h.input with
          ⟨secret, hsecret, hhash⟩
        refine Or.inr ⟨secret, l, ?_, hhash, htransferred⟩
        rw [unlocked, hsecret, h.gone_of_claimed hs]
        rfl
    | removed l =>
        exact Or.inl ⟨unlocked_of_preimage?_eq_none
          (ChannelInput.preimage?_of_shows_removed s h.input), Word.ext htransferred⟩
  · refine Or.inl ⟨unlocked_of_preimage?_eq_none (ChannelInput.preimage?_event e s), ?_⟩
    rw [h]
    rcases ChainEvent.endChange?_cases he with ⟨total, rfl⟩ | ⟨total, rfl⟩ | ⟨k, rfl⟩
    · rfl
    · rfl
    · rfl

/-- What one input issues at one end: nothing, or one proof with a new nonce. -/
theorem issued_cases {c : Channel} (hs : c.Sound) (s : Side) (i : ChannelInput) :
    (issued s c i = [] ∧ ((c.after i).endOf s).proof? = (c.endOf s).proof?) ∨
    (∃ p, issued s c i = [p] ∧ ((c.after i).endOf s).proof? = some p ∧
      (s = .ours → p.nonce = (c.endOf s).nonce.succWrap) ∧
      (s = .partner → (c.endOf s).nonce < p.nonce)) := by
  rcases after_cases hs i with ⟨err, herr⟩ | ⟨t, m, change, h⟩ | ⟨e, rfl⟩
  · refine Or.inl ⟨?_, by rw [after_eq_of_error herr]⟩
    rw [issued, herr, ite_self]
  · rcases Side.eq_or_eq_other t s with rfl | rfl
    · refine Or.inr ⟨m.balanceProof, ?_, ?_, ?_, ?_⟩
      · rw [issued, if_pos h.side, h.result]
      · rw [h.endOf_after, ChannelEnd.recommit_proof?]
      · rintro rfl
        exact h.ours rfl
      · rintro rfl
        exact h.partner rfl
    · refine Or.inl ⟨?_, by rw [h.after, endOf_withEnd_other]⟩
      -- The proof went to the other end.
      rw [issued, if_neg]
      rw [h.side]
      exact fun heq => t.other_ne (Option.some.inj heq).symm
  · refine Or.inl ⟨rfl, ?_⟩
    rcases applyEvent_endOf c e s with h | ⟨change, -, he, h⟩
    · rw [after_event, h]
    · rw [after_event, h]
      rcases ChainEvent.endChange?_cases he with ⟨total, rfl⟩ | ⟨total, rfl⟩ | ⟨k, rfl⟩
      · rfl
      · rfl
      · rfl

/-- Only a lock that is claimed on the ledger makes a balance proof say what is no
    longer so. -/
theorem after_committed {c : Channel} (hs : c.Sound) {i : ChannelInput}
    (hledger : i.isLedgerClaim = false)
    (h : ∀ s, (c.endOf s).Committed c.id c.tokenNetwork) (s : Side) :
    ((c.after i).endOf s).Committed (c.after i).id (c.after i).tokenNetwork := by
  have hcommitted := h s
  rw [after_id hs, after_tokenNetwork hs]
  rcases after_endOf hs i s with heq | ⟨m, change, hre⟩ | ⟨e, change, rfl, -, he, heq⟩
  · rwa [heq]
  · rw [hre.endOf_after]
    exact hre.recommits.committed
  · rw [heq]
    rcases ChainEvent.endChange?_cases he with ⟨total, rfl⟩ | ⟨total, rfl⟩ | ⟨k, rfl⟩
    · exact ⟨hcommitted.channelId_eq, hcommitted.tokenNetwork_eq, hcommitted.locked,
        hcommitted.root⟩
    · exact ⟨hcommitted.channelId_eq, hcommitted.tokenNetwork_eq, hcommitted.locked,
        hcommitted.root⟩
    · rw [ChannelInput.isLedgerClaim_of_endChange? he] at hledger
      cases hledger

/-! ### Over a whole history -/

/-- What an end transferred grows by what is unlocked along the way. -/
theorem run_transferredAmount {c : Channel} (hs : c.Sound) (s : Side)
    (inputs : List ChannelInput) :
    ((c.run inputs).endOf s).transferredAmount.val = (c.endOf s).transferredAmount.val
      + lockTotal ((collect after (unlocked s) c inputs).map Prod.snd) := by
  induction inputs generalizing c with
  | nil => rfl
  | cons i rest ih =>
      rw [run_cons, ih (after_sound hs i), collect, List.map_append, lockTotal_append]
      rcases unlocked_cases hs s i with ⟨hnone, hsame⟩ | ⟨secret, l, hone, -, hgrows⟩
      · rw [hnone, hsame, List.map_nil, lockTotal_nil, Nat.zero_add]
      · rw [hone, hgrows, List.map_singleton, lockTotal_cons, lockTotal_nil, Nat.add_zero,
          Nat.add_assoc]

/-- Every unlocked lock comes with a preimage of its hash. -/
theorem hashSecret_of_mem_collect {c : Channel} (hs : c.Sound) (s : Side)
    {inputs : List ChannelInput} {x : Secret × Lock}
    (hx : x ∈ collect after (unlocked s) c inputs) : hashSecret x.1 = x.2.secretHash := by
  induction inputs generalizing c with
  | nil => cases hx
  | cons i rest ih =>
      rw [collect, List.mem_append] at hx
      rcases hx with hx | hx
      · rcases unlocked_cases hs s i with ⟨hnone, -⟩ | ⟨secret, l, hone, hhash, -⟩
        · rw [hnone] at hx
          cases hx
        · rw [hone, List.mem_singleton] at hx
          rw [hx]
          exact hhash
      · exact ih (after_sound hs i) hx

/-- An end carries the last proof that was issued for it. -/
theorem run_proof? {c : Channel} (hs : c.Sound) (s : Side) (inputs : List ChannelInput) :
    ((c.run inputs).endOf s).proof?
      = (collect after (issued s) c inputs).getLast?.or (c.endOf s).proof? := by
  induction inputs generalizing c with
  | nil => rfl
  | cons i rest ih =>
      rw [run_cons, ih (after_sound hs i), collect, List.getLast?_append]
      rcases issued_cases hs s i with ⟨hnone, hsame⟩ | ⟨p, hone, hproof, -, -⟩
      · rw [hnone, hsame, List.getLast?_nil, Option.or_none]
      · rw [hone, hproof, List.getLast?_singleton, Option.or_assoc, Option.some_or]

/-- The proofs accepted from the partner have increasing nonces, all above the one
    that the partner started with. -/
theorem collect_issued_partner {c : Channel} (hs : c.Sound) (inputs : List ChannelInput) :
    (∀ p ∈ collect after (issued .partner) c inputs, (c.endOf .partner).nonce < p.nonce) ∧
    (collect after (issued .partner) c inputs).Pairwise fun p q => p.nonce < q.nonce := by
  induction inputs generalizing c with
  | nil => exact ⟨nofun, List.Pairwise.nil⟩
  | cons i rest ih =>
      rcases ih (after_sound hs i) with ⟨habove, hpairwise⟩
      rw [collect]
      rcases issued_cases hs .partner i with ⟨hnone, hsame⟩ | ⟨p, hone, hproof, -, hlarger⟩
      · have hnonce := ChannelEnd.nonce_congr hsame
        rw [hnonce] at habove
        rw [hnone, List.nil_append]
        exact ⟨habove, hpairwise⟩
      -- The new proof is the one to exceed from now on.
      · have hnonce := ChannelEnd.nonce_of_proof? hproof
        have hnew := hlarger rfl
        rw [hnonce] at habove
        rw [hone, List.singleton_append, List.pairwise_cons]
        refine ⟨?_, habove, hpairwise⟩
        intro q hq
        rcases List.mem_cons.mp hq with rfl | hq
        · exact hnew
        · exact Nat.lt_trans hnew (habove q hq)

/-- Our proofs are numbered one after the other, and start again after the largest
    word. -/
theorem collect_issued_ours {c : Channel} (hs : c.Sound) (inputs : List ChannelInput) (k : Nat)
    (p : BalanceProof) (hp : (collect after (issued .ours) c inputs)[k]? = some p) :
    p.nonce.val = ((c.endOf .ours).nonce.val + (k + 1)) % 2 ^ 64 := by
  induction inputs generalizing c k with
  | nil => cases hp
  | cons i rest ih =>
      rw [collect] at hp
      rcases issued_cases hs .ours i with ⟨hnone, hsame⟩ | ⟨q, hone, hproof, hnext, -⟩
      · have hnonce := ChannelEnd.nonce_congr hsame
        rw [hnone, List.nil_append] at hp
        rw [ih (after_sound hs i) k hp, hnonce]
      · have hnonce := ChannelEnd.nonce_of_proof? hproof
        have hq : q.nonce.val = ((c.endOf .ours).nonce.val + 1) % 2 ^ 64 :=
          congrArg Word.val (hnext rfl)
        rw [hone, List.singleton_append] at hp
        -- The first proof is this one, and the later ones are counted from it.
        cases k with
        | zero =>
            rw [List.getElem?_cons_zero, Option.some.injEq] at hp
            rw [← hp]
            exact hq
        | succ k =>
            rw [List.getElem?_cons_succ] at hp
            rw [ih (after_sound hs i) k hp, hnonce, hq]
            omega

/-- The balance proofs of both ends and the history of the channel tell the same
    story. -/
structure Consistent (c : Channel) (inputs : List ChannelInput) : Prop where
  channelId_eq : ∀ s p, ((c.run inputs).endOf s).proof? = some p → p.channelId = c.id
  tokenNetwork_eq : ∀ s p, ((c.run inputs).endOf s).proof? = some p →
    p.tokenNetwork = c.tokenNetwork
  locked : ∀ s p, ((c.run inputs).endOf s).proof? = some p →
    p.lockedAmount.val = ((c.run inputs).endOf s).pendingTotal
  root : ∀ s p, ((c.run inputs).endOf s).proof? = some p →
    p.locksroot = ((c.run inputs).endOf s).locksroot
  transferred : ∀ s p, ((c.run inputs).endOf s).proof? = some p →
    p.transferredAmount.val = lockTotal ((collect after (unlocked s) c inputs).map Prod.snd)
  preimages : ∀ s, ∀ x ∈ collect after (unlocked s) c inputs, hashSecret x.1 = x.2.secretHash
  latest : ∀ s, ((c.run inputs).endOf s).proof? = (collect after (issued s) c inputs).getLast?
  partnerNonces : (collect after (issued .partner) c inputs).Pairwise fun p q => p.nonce < q.nonce
  ourNonces : ∀ k p, (collect after (issued .ours) c inputs)[k]? = some p →
    p.nonce.val = (k + 1) % 2 ^ 64
  grows : ∀ s i, ((c.run inputs).endOf s).transferredAmount
    ≤ (((c.run inputs).after i).endOf s).transferredAmount
  refused : ∀ i err, (c.run inputs).respond i = .error err →
    (c.run inputs).after i = c.run inputs

/-- A history in which the ledger claims no lock keeps both ends committed to the
    channel that it started with. -/
theorem run_committed {c : Channel} (hs : c.Sound) {inputs : List ChannelInput}
    (hledger : ∀ i ∈ inputs, i.isLedgerClaim = false)
    (h : ∀ s, (c.endOf s).Committed c.id c.tokenNetwork) (s : Side) :
    ((c.run inputs).endOf s).Committed c.id c.tokenNetwork := by
  have hrun := run_invariant (P := fun c' => c'.id = c.id ∧ c'.tokenNetwork = c.tokenNetwork ∧
      ∀ s, (c'.endOf s).Committed c'.id c'.tokenNetwork)
    (fun c' i hs' hi h' => ⟨(after_id hs' i).trans h'.1, (after_tokenNetwork hs' i).trans h'.2.1,
      after_committed hs' hi h'.2.2⟩)
    hs ⟨rfl, rfl, h⟩ hledger
  have hcommitted := hrun.2.2 s
  rwa [hrun.1, hrun.2.1] at hcommitted

/-- Balance proofs are consistent after every history in which the ledger claims
    no lock. -/
theorem run_consistent {id : ChannelId} {tokenNetwork ourAddress partnerAddress : Address}
    {revealTimeout settleTimeout openedBlock : Height} {inputs : List ChannelInput}
    (hledger : ∀ i ∈ inputs, i.isLedgerClaim = false) :
    (fresh id tokenNetwork ourAddress partnerAddress revealTimeout settleTimeout
      openedBlock).Consistent inputs := by
  have hs := sound_fresh id tokenNetwork ourAddress partnerAddress revealTimeout settleTimeout
    openedBlock
  have hnone : ∀ s, ((fresh id tokenNetwork ourAddress partnerAddress revealTimeout settleTimeout
      openedBlock).endOf s).proof? = none := by
    intro s
    cases s with
    | ours => rfl
    | partner => rfl
  have hcommitted := run_committed hs hledger (fun s => ChannelEnd.committed_of_proof? (hnone s))
  -- A fresh end carries no proof, so its nonce and its transferred amount count from zero.
  refine ⟨fun s => (hcommitted s).channelId_eq, fun s => (hcommitted s).tokenNetwork_eq,
    fun s => (hcommitted s).locked, fun s => (hcommitted s).root, ?_,
    fun s x hx => hashSecret_of_mem_collect hs s hx, ?_, (collect_issued_partner hs inputs).2, ?_,
    fun s i => after_transferredAmount_le (run_sound hs inputs) i s,
    fun i err herr => after_eq_of_error herr⟩
  · intro s p hp
    rw [← ChannelEnd.transferredAmount_of_proof? hp, run_transferredAmount hs,
      ChannelEnd.transferredAmount_of_none (hnone s), Word.val_zero, Nat.zero_add]
  · intro s
    rw [run_proof? hs, hnone, Option.or_none]
  · intro k p hp
    rw [collect_issued_ours hs inputs k p hp, ChannelEnd.nonce_of_none (hnone .ours),
      Word.val_zero, Nat.zero_add]

theorem run_consistent_paidHistory :
    let history := paidHistory (FixedBytes.replicate 32 9) (FixedBytes.replicate 20 8)
      (FixedBytes.replicate 20 1) (FixedBytes.replicate 20 2) (FixedBytes.replicate 32 7)
    (∀ i ∈ history, i.isLedgerClaim = false) ∧
    (fresh (FixedBytes.replicate 32 9) (FixedBytes.replicate 20 8) (FixedBytes.replicate 20 1)
      (FixedBytes.replicate 20 2) 5 20 0).Consistent history :=
  ⟨by decide, run_consistent (by decide)⟩

end Channel

end PaymentNetwork
