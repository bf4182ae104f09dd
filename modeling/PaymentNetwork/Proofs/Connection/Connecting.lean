import PaymentNetwork.Proofs.Connection.Deposits

/-!
# What One Call to Connect Does

The channels that are opened and the deposits that are made when a node joins a network once.

The call chooses whom to open channels with at one moment, when it got the policy or, if nobody
was known then, when the opening with the stand-in succeeded. From then on it goes through those
it chose, one after the other, and whatever becomes of one of them it goes on with the next. What
it found at that moment may be wrong by the time of an opening, and what it opens may come into
view late or never. None of this changes what it asks for, except that a channel which did not
come into view in time gets no deposit.

So the stints of the call after the choice are counted against the list that was chosen. At each
place in the call a part of the list is done, a part is left, and one channel at most is waited
for. One stint takes the call from place to place, and the law is what this keeps: the openings
are the list itself, in order and as far as the call got; the deposits belong to openings that
succeeded, one to each at most; and the waits are few enough that the call comes to its end.

Each deposit is one share of the funds, and the shares were divided for at least as many channels
as are opened. The part that is kept counts to a millionth only. So the deposits together are
within what is left when the rounded part is kept, and that is all: a part with more places may
be cut into by what the rounding takes from it.

## Main definitions

* `Stint.opens?`, `Stint.deposits?`, `Stint.opened?`: What a stint asks for and what it learns.
* `Sought`: A channel was opened and then looked for this often.
* `Advance`: What one stint does to a call that opens channels.
* `BatchLaw`: What a call does after the choice.
* `ConnectLaw`: What a call does from its start.

## Theorems

* `advance`: Each stint of such a call advances it.
* `Batch.step`: What is known after a stint.
* `Batch.law`: The law of the openings and deposits after the choice.
* `run_connectLaw`: The law for every call, whatever other operations do meanwhile.
-/

namespace PaymentNetwork

/-! ### Who is known, and what is left -/

/-- The participants are in the order of their addresses. -/
theorem NetworkView.pairwise_participants (v : NetworkView) (tokenNetwork : Address) :
    (v.participants tokenNetwork).Pairwise fun a b => compare a b = .lt :=
  List.pairwise_map.mpr (v.network tokenNetwork).participants.sorted

/-- The shares of some channels, no more than the funds were divided for, are within what is left
    of the funds. -/
theorem Policy.exists_share {p : Policy} (hvalid : p.isValid = true) :
    fractionShare p.funds p.reserve p.channelTarget = some p.perPartner ∧
    ∃ keep, millionths? p.reserve = some keep ∧ ∀ n ≤ p.channelTarget.val,
      million * (n * p.perPartner.val) ≤ p.funds.val * keep := by
  simp only [Policy.isValid, Bool.and_eq_true, decide_eq_true_eq] at hvalid
  obtain ⟨⟨-, htarget⟩, hfraction⟩ := hvalid
  have hparts : 0 < p.channelTarget.val :=
    Nat.pos_of_ne_zero (fun hzero => htarget (Word.ext hzero))
  obtain ⟨keep, hkeep, hreserve⟩ := exists_millionths hfraction
  obtain ⟨share, hshare, hval⟩ := shareOf?_eq p.funds hkeep hparts
  have hfunds : fractionShare p.funds p.reserve p.channelTarget = some share := by
    rw [fractionShare_of_millionths p.funds hreserve hparts, hshare]
  have hperPartner : p.perPartner = share := by rw [Policy.perPartner, hfunds, Option.getD_some]
  rw [hperPartner]
  refine ⟨hfunds, keep, hreserve, fun n hn => ?_⟩
  rw [hval]
  calc million * (n * shareOf p.funds.val keep p.channelTarget.val)
      ≤ million * (p.channelTarget.val * shareOf p.funds.val keep p.channelTarget.val) :=
        Nat.mul_le_mul_left _ (Nat.mul_le_mul_right _ hn)
    _ ≤ million * (p.funds.val * keep / million) :=
        Nat.mul_le_mul_left _ (mul_shareOf_le p.funds.val keep hparts)
    _ ≤ p.funds.val * keep := Nat.mul_div_le _ _

/-! ### Places in a call -/

namespace Phase

/-- The partner whose channel is asked for. -/
def asks? (s : ConnectionSettings) : Phase → Option Address
  | bootstrapping => some s.bootstrapAddress
  | opening partner _ _ => some partner
  | _ => none

/-- The partners whose turn comes later. -/
def later : Phase → List Address
  | opening _ _ errand => errand.rest
  | polling _ _ _ errand => errand.rest
  | funding _ _ errand => errand.rest
  | _ => []

/-- May an operation stand here that opens channels and puts this amount into each? -/
def Opens (s : ConnectionSettings) (amount : Amount) : Phase → Prop
  | opening _ a (.batch _) => a = amount
  | polling _ polls a (.batch _) => a = amount ∧ polls < s.openMaxPolls.val
  | funding _ a (.batch _) => a = amount
  | ended result => result = .done
  | _ => False

/-- How many waits end at most until the operation does. -/
def waitsLeft (s : ConnectionSettings) : Phase → Nat
  | opening _ _ errand => (s.openMaxPolls.val + 2) * (errand.rest.length + 1)
  | polling _ polls _ errand =>
    s.openMaxPolls.val - polls + 1 + (s.openMaxPolls.val + 2) * errand.rest.length
  | funding _ _ errand => 1 + (s.openMaxPolls.val + 2) * errand.rest.length
  | _ => 0

end Phase

namespace Desk

namespace Stint

variable (s : ConnectionSettings) (t : Stint)

/-- The partner whose channel a stint asks for. -/
def opens? : Option Address :=
  match t.request? s with
  | some (.openChannel _ partner _) => some partner
  | _ => none

/-- The channel and the amount of the deposit that a stint asks for. -/
def deposits? : Option (ChannelId × Amount) :=
  match t.request? s with
  | some (.deposit _ channelId amount) => some (channelId, amount)
  | _ => none

/-- The channel that a stint learns was opened. -/
def opened? : Option Opening := t.phase.opens? s t.wake

theorem opens?_eq : t.opens? s = (t.next s).2.asks? s := by
  unfold opens? request?
  cases (t.next s).2 <;> rfl

theorem deposits?_eq : t.deposits? s = (t.next s).2.deposit? := by
  unfold deposits? request?
  cases (t.next s).2 <;> rfl

/-- The ticks between two looks for a channel passed. -/
def IsPoll (channelId : ChannelId) : Prop :=
  (∃ polls amount errand, t.phase = .polling channelId polls amount errand) ∧
    t.wake = .ticked true

/-- The channel is looked for: it was opened, or was waited for before. -/
def Looks (channelId : ChannelId) (polls : Nat) : Prop :=
  (polls = 0 ∧ ∃ o, t.opened? s = some o ∧ o.channelId = channelId) ∨
    ∃ before amount errand, polls = before + 1 ∧
      t.phase = .polling channelId before amount errand ∧ t.wake = .ticked true

end Stint

/-- The last stints opened the channel and then waited for it this often. -/
def Sought (s : ConnectionSettings) (stints : List Stint) (channelId : ChannelId) (polls : Nat) :
    Prop :=
  ∃ before t waits, stints = before ++ t :: waits ∧
    (∃ o, t.opened? s = some o ∧ o.channelId = channelId) ∧
    waits.length = polls ∧ ∀ u ∈ waits, u.IsPoll channelId

variable {s : ConnectionSettings}

theorem Sought.append {stints : List Stint} {t : Stint} {channelId : ChannelId} {polls : Nat}
    (h : ∀ before amount errand, t.phase = .polling channelId before amount errand →
      Sought s stints channelId before)
    (hlooks : t.Looks s channelId polls) : Sought s (stints ++ [t]) channelId polls := by
  rcases hlooks with ⟨rfl, hopened⟩ | ⟨polls, amount, errand, rfl, hphase, hwake⟩
  · exact ⟨stints, t, [], rfl, hopened, rfl, List.forall_mem_nil _⟩
  · obtain ⟨before, u, waits, rfl, hopened, rfl, hwaits⟩ := h polls amount errand hphase
    refine ⟨before, u, waits ++ [t], ?_, hopened, ?_, ?_⟩
    · rw [List.append_assoc, List.cons_append]
    · rw [List.length_append, List.length_singleton]
    · intro q hq
      rcases List.mem_append.mp hq with hq | hq
      · exact hwaits q hq
      · rw [List.mem_singleton.mp hq]
        exact ⟨⟨waits.length, amount, errand, hphase⟩, hwake⟩

/-! ### One stint -/

/-- What a stint does to a call that opens channels, and puts this amount into each. -/
structure Advance (s : ConnectionSettings) (amount : Amount) (t : Stint) (next : Phase) :
    Prop where
  opens : next.Opens s amount
  /-- It asks for the next opening, or the turn of those that are left comes later still. -/
  asked : (next.asks? s).toList ++ next.later = t.phase.later
  /-- Whoever a channel was opened with is done. -/
  made : ∃ done, done ++ next.pending = t.phase.pending ∧
    ((t.opened? s).toList.map Opening.partner).Sublist done
  /-- A channel that gets a deposit or is waited for was opened, and got none yet. -/
  funded : (next.deposit?.toList.map Prod.fst ++ next.awaits?.toList).Sublist
    (t.phase.awaits?.toList ++ (t.opened? s).toList.map Opening.channelId)
  shares : ∀ f, next.deposit? = some f →
    f.2 = amount ∧ f.2 ≠ 0 ∧ (t.view.channel? f.1).isSome = true ∧
      ∃ polls ≤ s.openMaxPolls.val, t.Looks s f.1 polls
  awaited : ∀ channelId polls a errand, next = .polling channelId polls a errand →
    t.Looks s channelId polls
  waits : next.waitsLeft s < t.phase.waitsLeft s

section Advance

variable {amount : Amount} {t : Stint}

theorem waitsLeft_openNext (partners : List Address) :
    (Membership.openNext amount partners).waitsLeft s
      = (s.openMaxPolls.val + 2) * partners.length := by
  cases partners <;> rfl

/-- The next opening is asked for, and none is if nobody is left. -/
theorem advance_openNext
    (hmade : ∃ done, done ++ t.phase.later = t.phase.pending ∧
      ((t.opened? s).toList.map Opening.partner).Sublist done)
    (hwaits : (s.openMaxPolls.val + 2) * t.phase.later.length < t.phase.waitsLeft s) :
    Advance s amount t (Membership.openNext amount t.phase.later) where
  opens := by cases t.phase.later <;> rfl
  asked := by cases t.phase.later <;> rfl
  made := by rwa [pending_openNext]
  funded := by cases t.phase.later <;> exact List.nil_sublist _
  shares f hf := by
    rw [Membership.deposit?_openNext] at hf
    cases hf
  awaited channelId polls a errand hnext := by
    cases hlater : t.phase.later <;> rw [hlater] at hnext <;> cases hnext
  waits := by rwa [waitsLeft_openNext]

/-- A channel that was opened gets its deposit if it is in view, or is waited for; or it is
    given up. -/
theorem advance_lookForChannel {channelId : ChannelId} {polls : Nat}
    (hpolls : polls ≤ s.openMaxPolls.val) (hlooks : t.Looks s channelId polls)
    (hmade : ∃ done, done ++ t.phase.later = t.phase.pending ∧
      ((t.opened? s).toList.map Opening.partner).Sublist done)
    (hfunded : [channelId].Sublist
      (t.phase.awaits?.toList ++ (t.opened? s).toList.map Opening.channelId))
    (hwaits : s.openMaxPolls.val - polls + 1 + (s.openMaxPolls.val + 2) * t.phase.later.length
      < t.phase.waitsLeft s) :
    Advance s amount t
      (t.membership.lookForChannel s channelId polls amount (.batch t.phase.later)) := by
  have hnext : Advance s amount t (Membership.openNext amount t.phase.later) :=
    advance_openNext hmade (by omega)
  unfold Membership.lookForChannel
  split
  · rename_i c hfound
    split
    · exact hnext
    · rename_i hamount
      refine ⟨rfl, rfl, hmade, hfunded, ?_, nofun, ?_⟩
      · intro f hf
        cases hf
        exact ⟨rfl, hamount, Option.isSome_of_eq_some hfound, polls, hpolls, hlooks⟩
      · exact Nat.lt_of_le_of_lt (Nat.add_le_add_right (Nat.le_add_left 1 _) _) hwaits
  · split
    · exact hnext
    · rename_i hmore
      refine ⟨⟨rfl, Nat.lt_of_not_le hmore⟩, rfl, hmade, hfunded, nofun, ?_, hwaits⟩
      intro id n a errand hpolling
      cases hpolling
      exact hlooks

/-- A channel that was opened is looked for. If none was then the partner is left alone. -/
theorem advance_opening {partner : Address} {rest : List Address}
    {answer : Except LedgerError LedgerAnswer}
    (hphase : t.phase = .opening partner amount (.batch rest)) (hwake : t.wake = .answered answer) :
    Advance s amount t (t.next s).2 := by
  obtain ⟨task, phase, wake, membership⟩ := t
  dsimp only at hphase hwake
  subst hphase hwake
  have hwaits : s.openMaxPolls.val - 0 + 1 + (s.openMaxPolls.val + 2) * rest.length
      < (s.openMaxPolls.val + 2) * (rest.length + 1) := by
    rw [Nat.mul_succ]
    omega
  -- Only one answer of the ledger names a channel.
  have hfailed : ∀ w, (Phase.opening partner amount (.batch rest)).opens? s w = none →
      Advance s amount ⟨task, .opening partner amount (.batch rest), w, membership⟩
        (Membership.openNext amount rest) := by
    intro w hw
    refine advance_openNext (t := ⟨task, .opening partner amount (.batch rest), w, membership⟩)
      ⟨[partner], rfl, ?_⟩ ?_
    · rw [Stint.opened?, hw]
      exact List.nil_sublist _
    · dsimp only [Phase.later, Errand.rest, Phase.waitsLeft]
      omega
  rcases answer with e | answer
  · exact hfailed _ rfl
  · cases answer with
    | opened channelId =>
        exact advance_lookForChannel (t := ⟨task, .opening partner amount (.batch rest),
          .answered (.ok (.opened channelId)), membership⟩) (Nat.zero_le _)
          (Or.inl ⟨rfl, _, rfl, rfl⟩) ⟨[partner], rfl, .refl _⟩ (.refl _) hwaits
    | _ => exact hfailed _ rfl

/-- After the ticks the channel is looked for again, and without them it is given up. -/
theorem advance_polling {channelId : ChannelId} {polls : Nat} {rest : List Address} {ok : Bool}
    (hphase : t.phase = .polling channelId polls amount (.batch rest))
    (hwake : t.wake = .ticked ok) (hpolls : polls < s.openMaxPolls.val) :
    Advance s amount t (t.next s).2 := by
  obtain ⟨task, phase, wake, membership⟩ := t
  dsimp only at hphase hwake
  subst hphase hwake
  cases ok with
  | true =>
      refine advance_lookForChannel (t := ⟨task, .polling channelId polls amount (.batch rest),
        .ticked true, membership⟩) hpolls (Or.inr ⟨polls, amount, .batch rest, rfl, rfl, rfl⟩)
        ⟨[], rfl, .refl _⟩ (.refl _) ?_
      dsimp only [Phase.later, Phase.waitsLeft]
      omega
  | false =>
      refine advance_openNext (t := ⟨task, .polling channelId polls amount (.batch rest),
        .ticked false, membership⟩) ⟨[], rfl, .refl _⟩ ?_
      dsimp only [Phase.later, Phase.waitsLeft]
      omega

/-- Whatever becomes of a deposit, the next opening comes after it. -/
theorem advance_funding {channelId : ChannelId} {rest : List Address}
    {answer : Except LedgerError LedgerAnswer}
    (hphase : t.phase = .funding channelId amount (.batch rest))
    (hwake : t.wake = .answered answer) : Advance s amount t (t.next s).2 := by
  obtain ⟨task, phase, wake, membership⟩ := t
  dsimp only at hphase hwake
  subst hphase hwake
  have hnext : Advance s amount ⟨task, .funding channelId amount (.batch rest), .answered answer,
      membership⟩ (Membership.openNext amount rest) := by
    refine advance_openNext (t := ⟨task, .funding channelId amount (.batch rest),
      .answered answer, membership⟩) ⟨[], rfl, .refl _⟩ ?_
    dsimp only [Phase.later, Phase.waitsLeft]
    omega
  rcases answer with e | a <;> exact hnext

/-- Each stint of a call that opens channels advances it. -/
theorem advance (hopens : t.phase.Opens s amount)
    (hends : (t.phase.wants s).isEndedBy t.wake = true) : Advance s amount t (t.next s).2 := by
  cases hphase : t.phase with
  | opening partner a errand =>
      rw [hphase] at hopens hends
      cases errand with
      | single => exact absurd hopens id
      | batch rest =>
          obtain rfl : a = amount := hopens
          cases hwake : t.wake with
          | answered answer => exact advance_opening hphase hwake
          | _ =>
              rw [hwake] at hends
              cases hends
  | polling channelId polls a errand =>
      rw [hphase] at hopens hends
      cases errand with
      | single => exact absurd hopens id
      | batch rest =>
          obtain ⟨rfl, hpolls⟩ : a = amount ∧ polls < s.openMaxPolls.val := hopens
          cases hwake : t.wake with
          | ticked ok => exact advance_polling hphase hwake hpolls
          | _ =>
              rw [hwake] at hends
              cases hends
  | funding channelId a errand =>
      rw [hphase] at hopens hends
      cases errand with
      | single => exact absurd hopens id
      | batch rest =>
          obtain rfl : a = amount := hopens
          cases hwake : t.wake with
          | answered answer => exact advance_funding hphase hwake
          | _ =>
              rw [hwake] at hends
              cases hends
  | ended result =>
      rw [hphase] at hends
      cases hends
  | _ =>
      rw [hphase] at hopens
      exact absurd hopens id

end Advance

/-! ### After the choice -/

/-- Where a call is that chose some partners and made some stints since, the choice included. -/
structure Batch (s : ConnectionSettings) (amount : Amount) (chosen : List Address)
    (stints : List Stint) (now : Phase) : Prop where
  opens : now.Opens s amount
  places : ∀ t ∈ stints, (t.next s).2.Opens s amount
  asked : stints.filterMap (Stint.opens? s) ++ now.later = chosen
  made : ∃ done, done ++ now.pending = chosen ∧
    ((stints.filterMap (Stint.opened? s)).map Opening.partner).Sublist done
  funded : ((stints.filterMap (Stint.deposits? s)).map Prod.fst ++ now.awaits?.toList).Sublist
    ((stints.filterMap (Stint.opened? s)).map Opening.channelId)
  shares : ∀ f ∈ stints.filterMap (Stint.deposits? s), f.2 = amount ∧ f.2 ≠ 0
  looked : ∀ before t later, stints = before ++ t :: later → ∀ f, t.deposits? s = some f →
    (t.view.channel? f.1).isSome = true ∧
      ∃ polls ≤ s.openMaxPolls.val, Sought s (before ++ [t]) f.1 polls
  awaited : ∀ channelId polls a errand, now = .polling channelId polls a errand →
    Sought s stints channelId polls
  waits : stints.length + now.waitsLeft s ≤ 1 + (s.openMaxPolls.val + 2) * chosen.length

section Batch

variable {amount : Amount} {chosen : List Address} {stints : List Stint} {now : Phase}

/-- The choice itself asks for the first opening. -/
theorem batch_chosen {t : Stint} (hopened : t.opened? s = none)
    (hnext : (t.next s).2 = Membership.openNext amount chosen) :
    Batch s amount chosen [t] (t.next s).2 := by
  -- The stint makes one request, which is the first opening, and no deposit.
  have hopens : [t].filterMap (Stint.opens? s) = (t.opens? s).toList :=
    filterMap_append_singleton _ [] t
  have hmade : [t].filterMap (Stint.opened? s) = [] := by
    rw [List.filterMap_cons, hopened, List.filterMap_nil]
  have hdeposits : t.deposits? s = none := by
    rw [t.deposits?_eq, hnext, Membership.deposit?_openNext]
  have hnone : [t].filterMap (Stint.deposits? s) = [] := by
    rw [List.filterMap_cons, hdeposits, List.filterMap_nil]
  rw [t.opens?_eq] at hopens
  rw [hnext] at hopens ⊢
  have hplace : (Membership.openNext amount chosen).Opens s amount := by cases chosen <;> rfl
  refine ⟨hplace, ?_, ?_, ⟨[], pending_openNext .., ?_⟩, ?_, ?_, ?_, ?_, ?_⟩
  · intro u hu
    rwa [List.mem_singleton.mp hu, hnext]
  · rw [hopens]
    cases chosen <;> rfl
  · rw [hmade]
    exact .refl _
  · rw [hnone]
    cases chosen <;> exact List.nil_sublist _
  · rw [hnone]
    nofun
  · intro before u later hsplit f hf
    have hmem : u ∈ [t] := hsplit ▸ List.mem_append_right _ List.mem_cons_self
    rw [List.mem_singleton.mp hmem, hdeposits] at hf
    cases hf
  · intro channelId polls a errand hpolling
    cases chosen <;> cases hpolling
  · rw [waitsLeft_openNext]
    exact Nat.le_refl _

/-- What is known after a stint. -/
theorem Batch.step {t : Stint} (h : Batch s amount chosen stints t.phase)
    (hends : (t.phase.wants s).isEndedBy t.wake = true) :
    Batch s amount chosen (stints ++ [t]) (t.next s).2 := by
  have hadvance := advance h.opens hends
  have hsought : ∀ channelId polls, t.Looks s channelId polls →
      Sought s (stints ++ [t]) channelId polls :=
    fun channelId polls => Sought.append (h.awaited channelId)
  refine ⟨hadvance.opens, ?_, ?_, ?_, ?_, ?_, ?_, ?_, ?_⟩
  · intro u hu
    rcases List.mem_append.mp hu with hu | hu
    · exact h.places u hu
    · rw [List.mem_singleton.mp hu]
      exact hadvance.opens
  · rw [filterMap_append_singleton, t.opens?_eq, List.append_assoc, hadvance.asked]
    exact h.asked
  · obtain ⟨done, hdone, hmade⟩ := h.made
    obtain ⟨done', hdone', hmade'⟩ := hadvance.made
    refine ⟨done ++ done', ?_, ?_⟩
    · rw [List.append_assoc, hdone', hdone]
    · rw [filterMap_append_singleton, List.map_append]
      exact hmade.append hmade'
  · rw [filterMap_append_singleton, filterMap_append_singleton, t.deposits?_eq, List.map_append,
      List.map_append, List.append_assoc]
    refine (hadvance.funded.append_left _).trans ?_
    rw [← List.append_assoc]
    exact h.funded.append_right _
  · intro f hf
    rw [filterMap_append_singleton, t.deposits?_eq] at hf
    rcases List.mem_append.mp hf with hf | hf
    · exact h.shares f hf
    · obtain ⟨hamount, hpositive, -⟩ := hadvance.shares f (Option.mem_toList.mp hf)
      exact ⟨hamount, hpositive⟩
  · intro before u later hsplit f hf
    -- A deposit that was asked for before was looked for before.
    rcases List.eq_nil_or_concat later with rfl | ⟨later', last, rfl⟩
    · obtain ⟨rfl, hlast⟩ := List.append_inj' hsplit rfl
      obtain rfl := List.singleton_inj.mp hlast
      rw [t.deposits?_eq] at hf
      obtain ⟨-, -, hseen, polls, hpolls, hlooks⟩ := hadvance.shares f hf
      exact ⟨hseen, polls, hpolls, hsought _ _ hlooks⟩
    · rw [List.concat_eq_append, ← List.cons_append, ← List.append_assoc] at hsplit
      exact h.looked before u later' (List.append_inj' hsplit rfl).1 f hf
  · intro channelId polls a errand hnext
    exact hsought _ _ (hadvance.awaited channelId polls a errand hnext)
  · have hwaits := h.waits
    have hless := hadvance.waits
    rw [List.length_append, List.length_singleton]
    omega

theorem later_suffix (p : Phase) : p.later <:+ p.pending := by
  cases p with
  | opening partner a errand => exact List.suffix_cons partner _
  | _ => exact List.suffix_refl _

/-- Whoever is done was asked for. -/
theorem Batch.opened (h : Batch s amount chosen stints now) :
    ((stints.filterMap (Stint.opened? s)).map Opening.partner).Sublist
      (stints.filterMap (Stint.opens? s)) := by
  obtain ⟨done, hdone, hmade⟩ := h.made
  obtain ⟨current, hcurrent⟩ := later_suffix now
  -- What is still to be asked for cancels out at the end of both lists.
  have hasked : stints.filterMap (Stint.opens? s) = done ++ current := by
    have hlists : stints.filterMap (Stint.opens? s) ++ now.later
        = done ++ current ++ now.later := by
      rw [h.asked, ← hdone, ← hcurrent, List.append_assoc]
    exact List.append_cancel_right hlists
  rw [hasked]
  exact hmade.trans (List.sublist_append_left done current)

/-- There are no more deposits than partners that were chosen. -/
theorem Batch.length_deposits_le (h : Batch s amount chosen stints now) :
    (stints.filterMap (Stint.deposits? s)).length ≤ chosen.length := by
  have hfunded := ((List.sublist_append_left _ _).trans h.funded).length_le
  have hopened := h.opened.length_le
  have hasked := congrArg List.length h.asked
  rw [List.length_append] at hasked
  simp only [List.length_map] at hfunded hopened
  omega

end Batch

/-- The sum of some deposits. -/
def totalOf (deposits : List (ChannelId × Amount)) : Nat := (deposits.map (·.2.val)).sum

theorem totalOf_eq {deposits : List (ChannelId × Amount)} {amount : Amount}
    (h : ∀ f ∈ deposits, f.2 = amount) : totalOf deposits = deposits.length * amount.val := by
  rw [totalOf, List.map_congr_left (fun f hf => congrArg Word.val (h f hf)), List.map_const',
    List.sum_replicate_nat]

/-- What a call does that joins a network with a policy, after it chose its partners by a view:
    these are its stints since then, the choice included, and this is where it stands. -/
structure BatchLaw (s : ConnectionSettings) (p : Policy) (v : NetworkView) (stints : List Stint)
    (now : Phase) : Prop where
  /-- It asks for openings and deposits in its network, and for nothing else. -/
  calls : ∀ t ∈ stints, ∀ r, t.request? s = some r →
    (∃ partner, r = .openChannel s.tokenNetwork partner s.settleTimeout) ∨
    ∃ channelId amount, r = .deposit s.tokenNetwork channelId amount
  /-- It opens a channel with each of the partners that it chose, once and in their order, as far
      as it got, and it does not end before it got to the last one. -/
  asked : stints.filterMap (Stint.opens? s) <+: s.newPartners v (s.missing v p) ∧
    ∀ result, now = .ended result → result = .done ∧
      stints.filterMap (Stint.opens? s) = s.newPartners v (s.missing v p)
  /-- They are the first of the participants in the order of their addresses that are neither us
      nor the stand-in, and whose latest channel with us is not open, if there is one. -/
  increasing : (s.newPartners v (s.missing v p)).Pairwise fun a b => compare a b = .lt
  eligible : ∀ a ∈ s.newPartners v (s.missing v p), a ∈ v.participants s.tokenNetwork ∧
    a ≠ s.ourAddress ∧ a ≠ s.bootstrapAddress ∧
    ∀ c, v.channelByPartner? s.tokenNetwork a = some c → c.isOpen = false
  first : ∀ a ∈ v.participants s.tokenNetwork, s.isEligible v a = true →
    a ∈ s.newPartners v (s.missing v p) ∨
      (s.newPartners v (s.missing v p)).length
          = p.channelTarget.val - (v.openChannels s.tokenNetwork).length ∧
        ∀ b ∈ s.newPartners v (s.missing v p), compare b a = .lt
  /-- An opening that is asked for succeeds once at most. -/
  opened : ((stints.filterMap (Stint.opened? s)).map Opening.partner).Sublist
    (stints.filterMap (Stint.opens? s))
  /-- An opening that succeeded gets one deposit at most, of one share of the funds. -/
  funded : ((stints.filterMap (Stint.deposits? s)).map Prod.fst).Sublist
    ((stints.filterMap (Stint.opened? s)).map Opening.channelId)
  shares : ∀ f ∈ stints.filterMap (Stint.deposits? s),
    fractionShare p.funds p.reserve p.channelTarget = some f.2 ∧ f.2 ≠ 0
  /-- At that moment the channel is in view, and since it was opened nothing happened but that it
      was waited for, and not too often. -/
  looked : ∀ before t later, stints = before ++ t :: later → ∀ f, t.deposits? s = some f →
    (t.view.channel? f.1).isSome = true ∧
      ∃ polls ≤ s.openMaxPolls.val, Sought s (before ++ [t]) f.1 polls
  /-- All deposits together are within what is left when the reserve is kept, which counts to a
      millionth. -/
  total : ∃ keep, millionths? p.reserve = some keep ∧
    million * totalOf (stints.filterMap (Stint.deposits? s)) ≤ p.funds.val * keep
  /-- It comes to its end, whatever becomes of the openings. -/
  bound : stints.length ≤ 1 + (s.openMaxPolls.val + 2) * (s.newPartners v (s.missing v p)).length

/-- The law of the openings and deposits of a call after its choice. -/
theorem Batch.law {p : Policy} {v : NetworkView} {stints : List Stint} {now : Phase}
    (hvalid : p.isValid = true)
    (h : Batch s p.perPartner (s.newPartners v (s.missing v p)) stints now) :
    BatchLaw s p v stints now := by
  obtain ⟨hshare, keep, hreserve, htotal⟩ := Policy.exists_share hvalid
  have hsub : (s.newPartners v (s.missing v p)).Sublist
      ((v.participants s.tokenNetwork).filter (s.isEligible v)) := List.take_sublist _ _
  have hsorted := (v.pairwise_participants s.tokenNetwork).sublist
    (List.filter_sublist (p := s.isEligible v))
  refine ⟨?_, ?_, hsorted.sublist hsub, ?_, ?_, h.opened,
    (List.sublist_append_left _ _).trans h.funded, ?_, h.looked, ⟨keep, hreserve, ?_⟩, ?_⟩
  · intro t ht r hr
    have hplace := h.places t ht
    rw [Stint.request?_eq_some_iff] at hr
    cases hnext : (t.next s).2 <;> rw [hnext] at hplace hr <;> cases hr
    · exact absurd hplace id
    · exact Or.inl ⟨_, rfl⟩
    · exact Or.inr ⟨_, _, rfl⟩
    · exact absurd hplace id
    · exact absurd hplace id
  · refine ⟨⟨now.later, h.asked⟩, fun result hnow => ?_⟩
    have hplace := h.opens
    have hasked := h.asked
    subst hnow
    change _ ++ [] = _ at hasked
    rw [List.append_nil] at hasked
    exact ⟨hplace, hasked⟩
  · intro a ha
    obtain ⟨hknown, heligible⟩ := List.mem_filter.mp (hsub.subset ha)
    simp only [ConnectionSettings.isEligible, Bool.and_eq_true, decide_eq_true_eq] at heligible
    obtain ⟨⟨hus, hstand⟩, hopen⟩ := heligible
    refine ⟨hknown, hus, hstand, fun c hc => ?_⟩
    rw [hc] at hopen
    simpa using hopen
  · -- The choice takes a first part of all eligible participants in their order. Who is left out
    -- comes after everybody chosen, and only if as many are chosen as are missing.
    intro a hknown heligible
    have hmem : a ∈ (v.participants s.tokenNetwork).filter (s.isEligible v) :=
      List.mem_filter.mpr ⟨hknown, heligible⟩
    rw [← List.take_append_drop (s.missing v p)
      ((v.participants s.tokenNetwork).filter (s.isEligible v))] at hmem hsorted
    rcases List.mem_append.mp hmem with hchosen | hleft
    · exact Or.inl hchosen
    · refine Or.inr ⟨List.length_take_of_le ?_,
        fun b hb => (List.pairwise_append.mp hsorted).2.2 b hb a hleft⟩
      have hlength := List.length_pos_of_mem hleft
      rw [List.length_drop] at hlength
      have hmissing : s.missing v p
        = p.channelTarget.val - (v.openChannels s.tokenNetwork).length := rfl
      omega
  · intro f hf
    obtain ⟨hamount, hpositive⟩ := h.shares f hf
    rw [hamount] at hpositive ⊢
    exact ⟨hshare, hpositive⟩
  · rw [totalOf_eq (fun f hf => (h.shares f hf).1)]
    refine htotal _ (Nat.le_trans h.length_deposits_le ?_)
    exact Nat.le_trans (List.length_take_le _ _) (Nat.sub_le _ _)
  · exact Nat.le_trans (Nat.le_add_right _ _) h.waits

/-! ### The call -/

/-- An operation that joins the network gets the policy. -/
def Stint.Gets (p : Policy) (t : Stint) : Prop :=
  t.phase = .queued (.connect p) ∧ t.wake = .granted

/-- The parts of a call that joins a network with a policy: these are its stints, and this is
    where it stands. What happens after the choice of its partners is left open. -/
inductive Call (s : ConnectionSettings) (p : Policy)
    (chosenBy : NetworkView → List Stint → Phase → Prop) : List Stint → Phase → Prop
  /-- It is refused at once if the arguments are wrong. -/
  | invalid (wrong : p.isValid = false) : Call s p chosenBy [] (.ended (.failed .invalidArgument))
  | queued (valid : p.isValid = true) : Call s p chosenBy [] (.queued (.connect p))
  /-- It opens a channel with the stand-in if it knows of no participant when it gets the
      policy. -/
  | bootstrapping {g : Stint} (valid : p.isValid = true) (gets : g.Gets p)
      (nobody : g.view.participants s.tokenNetwork = []) : Call s p chosenBy [g] .bootstrapping
  /-- It ends if this fails. -/
  | refused {g t : Stint} {e : LedgerError} (valid : p.isValid = true) (gets : g.Gets p)
      (nobody : g.view.participants s.tokenNetwork = []) (waits : t.phase = .bootstrapping)
      (answer : t.wake = .answered (.error e)) :
      Call s p chosenBy [g, t] (.ended (.failed (.ledger e)))
  /-- It chooses its partners if this succeeds. -/
  | bootstrapped {g t : Stint} {a : LedgerAnswer} {later : List Stint} {now : Phase}
      (valid : p.isValid = true) (gets : g.Gets p)
      (nobody : g.view.participants s.tokenNetwork = []) (waits : t.phase = .bootstrapping)
      (answer : t.wake = .answered (.ok a)) (chosen : chosenBy t.view (t :: later) now) :
      Call s p chosenBy (g :: t :: later) now
  /-- It chooses them at once if somebody is known. -/
  | direct {g : Stint} {later : List Stint} {now : Phase} (valid : p.isValid = true)
      (gets : g.Gets p) (known : g.view.participants s.tokenNetwork ≠ [])
      (chosen : chosenBy g.view (g :: later) now) : Call s p chosenBy (g :: later) now

section Call

variable {p : Policy} {stints : List Stint} {now : Phase}

theorem Call.imp {chosenBy chosenBy' : NetworkView → List Stint → Phase → Prop}
    (h : Call s p chosenBy stints now)
    (himp : p.isValid = true → ∀ v those phase, chosenBy v those phase → chosenBy' v those phase) :
    Call s p chosenBy' stints now := by
  cases h with
  | invalid wrong => exact .invalid wrong
  | queued valid => exact .queued valid
  | bootstrapping valid gets nobody => exact .bootstrapping valid gets nobody
  | refused valid gets nobody waits answer => exact .refused valid gets nobody waits answer
  | bootstrapped valid gets nobody waits answer chosen =>
      exact .bootstrapped valid gets nobody waits answer (himp valid _ _ _ chosen)
  | direct valid gets known chosen => exact .direct valid gets known (himp valid _ _ _ chosen)

/-- Where a call is after its choice, that joins with a policy. -/
def BatchOf (s : ConnectionSettings) (p : Policy) (v : NetworkView) (stints : List Stint)
    (now : Phase) : Prop :=
  Batch s p.perPartner (s.newPartners v (s.missing v p)) stints now

/-- The next stint of a call. The policy is still the one that the call came with, if it was
    already given to it. -/
theorem Call.step {t : Stint} (h : Call s p (BatchOf s p) stints t.phase)
    (hends : (t.phase.wants s).isEndedBy t.wake = true)
    (hpolicy : t.phase.usesPolicy = true → t.membership.policy = p) :
    Call s p (BatchOf s p) (stints ++ [t]) (t.next s).2 := by
  obtain ⟨task, phase, wake, membership⟩ := t
  dsimp only at h hends hpolicy
  -- Where the call stands says which wait ends, and the other ends are not of that wait.
  cases h with
  | invalid wrong => cases hends
  | refused => cases hends
  | queued valid =>
      cases wake with
      | granted =>
          by_cases hnobody : membership.view.participants s.tokenNetwork = []
          · have hnext : (membership.granted s (.connect p)).2 = .bootstrapping := by
              rw [Membership.granted, hnobody]
              rfl
            change Call s p _ _ (membership.granted s (.connect p)).2
            rw [hnext]
            exact .bootstrapping valid ⟨rfl, rfl⟩ hnobody
          · refine .direct (g := ⟨task, .queued (.connect p), .granted, membership⟩) valid
              ⟨rfl, rfl⟩ hnobody ?_
            refine batch_chosen rfl ?_
            change (if _ then _ else _) = _
            rw [if_neg (by simpa using hnobody)]
            rfl
      | _ => cases hends
  | bootstrapping valid gets nobody =>
      cases wake with
      | answered answer =>
          rcases answer with e | a
          · exact .refused valid gets nobody rfl rfl
          · refine .bootstrapped (t := ⟨task, .bootstrapping, .answered (.ok a), membership⟩) valid
              gets nobody rfl rfl ?_
            have hchosen : (membership.addPartners s) = Membership.openNext p.perPartner
                (s.newPartners membership.view (s.missing membership.view p)) := by
              rw [Membership.addPartners, hpolicy rfl]
            exact batch_chosen rfl hchosen
      | _ => cases hends
  | bootstrapped valid gets nobody waits answer chosen =>
      exact .bootstrapped valid gets nobody waits answer
        (Batch.step (t := ⟨task, phase, wake, membership⟩) chosen hends)
  | direct valid gets known chosen =>
      exact .direct valid gets known
        (Batch.step (t := ⟨task, phase, wake, membership⟩) chosen hends)

/-- Whoever uses the policy after a stint of the call uses the one that the call came with. -/
theorem Call.policy_next {t : Stint} (h : Call s p (BatchOf s p) stints t.phase)
    (hpolicy : t.phase.usesPolicy = true → t.membership.policy = p)
    (huses : (t.next s).2.usesPolicy = true) : (t.next s).1.policy = p := by
  rcases t.membership.usesPolicy_resume s huses with hbefore | ⟨op, hphase, hwake⟩
  · rcases t.membership.resume_cases s t.phase t.wake with ⟨op, hphase, -⟩ | hsame
    · rw [hphase] at hbefore
      cases hbefore
    · rw [Stint.next, hsame]
      exact hpolicy hbefore
  · -- Only the call itself waits for the policy here, and it brings its own.
    rw [hphase] at h
    have hop : op = .connect p := by
      cases h with
      | queued valid => rfl
      | bootstrapped valid gets nobody waits answer chosen => exact absurd chosen.opens id
      | direct valid gets known chosen => exact absurd chosen.opens id
    rw [Stint.next, hphase, hwake, hop]
    rfl

end Call

/-- The operation in the last place after the start of a call is the call. -/
theorem start_connect (d : Desk) (p : Policy) :
    ∃ now, (d.after s (.start (.connect p))).phases[d.phases.length]? = some now ∧
      Call s p (BatchOf s p) [] now ∧ now.usesPolicy = false := by
  refine ⟨(d.membership.begin s (.connect p)).2, List.getElem?_concat_length .., ?_,
    d.membership.begin_usesPolicy s _⟩
  cases hvalid : p.isValid with
  | true =>
      rw [Membership.begin, if_pos hvalid]
      exact .queued hvalid
  | false =>
      rw [Membership.begin, if_neg (by simp [hvalid])]
      exact .invalid hvalid

/-- What a call does from its start. -/
def ConnectLaw (s : ConnectionSettings) (p : Policy) (stints : List Stint) (now : Phase) : Prop :=
  Call s p (BatchLaw s p) stints now

theorem run_batch (d : Desk) (p : Policy) (moves : List Move) :
    ∃ now, ((d.after s (.start (.connect p))).run s moves).phases[d.phases.length]? = some now ∧
      Call s p (BatchOf s p)
        ((d.after s (.start (.connect p))).stintsOf s d.phases.length moves) now ∧
      (now.usesPolicy = true →
        ((d.after s (.start (.connect p))).run s moves).membership.policy = p) := by
  obtain ⟨first, hfirst, hcall, hfree⟩ := start_connect (s := s) d p
  -- The policy may be changed by others as long as the call does not hold it, so what the policy is
  -- goes with the phase.
  generalize d.after s (.start (.connect p)) = d₁ at hfirst ⊢
  induction moves using List.reverseRecOn with
  | nil => exact ⟨first, hfirst, hcall, fun huses => absurd huses (by simp [hfree])⟩
  | append_singleton moves move ih =>
      obtain ⟨now, hnow, hcall, hpolicy⟩ := ih
      rw [run_append_singleton, stintsOf_append_singleton]
      rcases after_place_cases hnow move with
        ⟨t, ht, hplace, rfl, hmembership, hnext⟩ | ⟨hother, hstays, hkeeps⟩
      · obtain ⟨-, hfound, -, hends⟩ := stint?_eq_some_iff.mp ht
        rw [← hfound] at hpolicy
        rw [ht, Option.filter_some, if_pos (decide_eq_true hplace), hmembership]
        exact ⟨_, hnext, hcall.step hends hpolicy, hcall.policy_next hpolicy⟩
      · have hnone : ((d₁.run s moves).stint? s move).filter (·.task = d.phases.length) = none := by
          rw [Option.filter_eq_none_iff]
          intro t ht
          simpa using hother t ht
        rw [hnone, Option.toList_none, List.append_nil]
        exact ⟨now, hstays, hcall, fun huses => (hkeeps huses).trans (hpolicy huses)⟩

/-- Every call keeps to the law, whatever other operations did before and do meanwhile. -/
theorem run_connectLaw (d : Desk) (p : Policy) (moves : List Move) :
    ∃ now, ((d.after s (.start (.connect p))).run s moves).phases[d.phases.length]? = some now ∧
      ConnectLaw s p ((d.after s (.start (.connect p))).stintsOf s d.phases.length moves) now := by
  obtain ⟨now, hnow, hcall, -⟩ := run_batch (s := s) d p moves
  exact ⟨now, hnow, hcall.imp (fun hvalid v those phase => Batch.law hvalid)⟩

namespace FineReserve

/-! ### A reserve with seven places -/

def us : Address := .replicate 20 1

def participant : Address := .replicate 20 17

def channelId : ChannelId := .replicate 32 17

def settings : ConnectionSettings := ⟨.replicate 20 170, us, .replicate 20 2, 100, 1, 1, 3⟩

/-- One node is known. -/
def view : NetworkView :=
  (NetworkView.fresh us 5).addParticipant settings.tokenNetwork participant

/-- All but one of 128 equal parts are kept. -/
def policy : Policy := ⟨128000000, 1, 0.9921875⟩

/-- A channel is opened with the node, comes into view and gets its deposit. -/
def moves : List Move :=
  [.wake 0 .granted, .wake 0 (.answered (.ok (.opened channelId))),
    .event (.channelOpened settings.tokenNetwork channelId us participant 100 10),
    .wake 0 (.ticked true), .wake 0 (.answered (.ok .done))]

/-- The stints of a node that joins with the policy. -/
def stints : List Stint :=
  ((fresh ⟨view, .empty⟩).after settings (.start (.connect policy))).stintsOf settings 0 moves

theorem total_stints : totalOf (stints.filterMap (Stint.deposits? settings)) = 1000064 := by
  decide +kernel

theorem reserve_eq : (policy.reserve == Float.ofNat 127 / Float.ofNat 128) = true := by
  decide +kernel

/-- The deposits exceed the part of the funds that is not kept, as the reserve itself has it. -/
theorem exceeds_unrounded :
    ¬ ∀ (s : ConnectionSettings) (p : Policy) (v : NetworkView) (moves : List Move)
      (kept places : Nat), p.isValid = true → kept ≤ 2 ^ places → places ≤ 52 →
      (p.reserve == Float.ofNat kept / Float.ofNat (2 ^ places)) = true →
      2 ^ places * totalOf ((((fresh ⟨v, .empty⟩).after s (.start (.connect p))).stintsOf s 0
        moves).filterMap (Stint.deposits? s)) ≤ p.funds.val * (2 ^ places - kept) := by
  intro h
  have hle : 2 ^ 7 * totalOf (stints.filterMap (Stint.deposits? settings))
      ≤ policy.funds.val * (2 ^ 7 - 127) :=
    h settings policy view moves 127 7 (by decide +kernel) (by decide) (by decide) reserve_eq
  rw [total_stints] at hle
  exact absurd hle (by decide +kernel)

end FineReserve

end Desk

end PaymentNetwork
