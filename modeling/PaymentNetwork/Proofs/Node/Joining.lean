import Mathlib.Algebra.Order.BigOperators.Group.List
import Mathlib.Algebra.Order.Group.Nat
import PaymentNetwork.Proofs.Broker.Openings
import PaymentNetwork.Proofs.Connection.Budget
import PaymentNetwork.Proofs.Node.Run

/-!
# Joining the Channels of Partners

How often a node deposits into a channel because its partner did.

A partner that puts funds into a channel invites the node to do the same, if the node put
nothing into it yet. Whether it did is read off the view when the deposit of the partner is
handled. The deposit of the node itself is made later, by an operation that waits for the
policy, and is in view later still, once it is confirmed. A partner that deposits again in the
meantime invites again, and nothing is looked up a second time when the operation gets its
turn. So the node may put more than one share into a channel.

The law is that this is all that can go wrong. An invitation brings one deposit at most, of
one share at most and of what the partner put in at most, into a channel with this partner,
however the operations of the node take turns, and whatever else it does meanwhile. So the
shares that the node puts into a channel like this are not more than the invitations of the
partner, and they are one at most if the partner invites once. A run with two deposits of the
partner in one block attains the bound.

Operations may take turns between two events of a block here, not only between blocks.

## Main definitions

* `Workplace`: A node and its operations, where each of them stands.
* `Workplace.after`, `Workplace.run`: What becomes of them.
* `Joining`, `Workplace.log`: The invitations and deposits of a run.
* `Workplace.JoiningLaw`: What every run keeps to.

## Theorems

* `Workplace.run_block`: A block comes down to moves.
* `Job.Stands.resume`, `Job.Stands.deposits`: What one operation does.
* `Workplace.Booked.after`: What one move keeps.
* `Workplace.run_joiningLaw`: The law for every run.
-/

namespace PaymentNetwork

/-! ### Channels and their partners -/

namespace NetworkView

variable {v v' : NetworkView}

/-- The channel that is stored in this place is one with the partner. -/
def LeadsTo (v : NetworkView) (tokenNetwork : Address) (id : ChannelId) (partner : Address) :
    Prop :=
  ∃ c, v.stored? tokenNetwork id = some c ∧ c.partner.address = partner

theorem LeadsTo.evolve {opened : List Opening} (hindexed : v.Indexed opened) (h : v.Evolves v')
    {tokenNetwork partner : Address} {id : ChannelId} (hleads : v.LeadsTo tokenNetwork id partner) :
    v'.LeadsTo tokenNetwork id partner := by
  obtain ⟨c, hstored, rfl⟩ := hleads
  obtain ⟨opened', hindexed', hsub⟩ := h opened hindexed
  have hat := hindexed.stored tokenNetwork id
  rw [hstored, Option.map_some] at hat
  obtain ⟨hmem, rfl, rfl⟩ := Opening.at?_eq_some hat.symm
  obtain ⟨c', hstored', hopening⟩ := hindexed'.stored?_of_mem (hsub hmem)
  exact ⟨c', hstored', congrArg Opening.partner hopening⟩

/-- The latest channel with a partner is one with this partner. -/
theorem Indexed.leadsTo {opened : List Opening} (h : v.Indexed opened)
    {tokenNetwork partner : Address} {c : Channel}
    (hc : v.channelByPartner? tokenNetwork partner = some c) :
    v.LeadsTo tokenNetwork c.id partner := by
  have hlatest := h.channelByPartner?_opening tokenNetwork partner
  rw [hc, Option.map_some] at hlatest
  obtain ⟨-, -, hpartner⟩ := Opening.latestWith?_eq_some hlatest.symm
  exact ⟨c, h.mem_channels.mp (h.mem_of_channelByPartner? hc), hpartner⟩

end NetworkView

/-! ### A node at work -/

/-- An operation of a node, and where it stands. -/
structure Job where
  op : Operation
  phase : Phase

/-- A node, and its operations on each token network in the order in which they started. -/
structure Workplace where
  node : Node
  jobs : Address → List Job

namespace Workplace

/-- Something that happens at work. The events of a block are handled one after the other, and
    operations may take turns in between. -/
inductive Move where
  /-- An event that is confirmed is handled. -/
  | handle (e : ChainEvent)
  /-- The events of a block were handled, and the rest of it follows. -/
  | round (number : Height)
  | message (sender : Address) (m : Message)
  | pay (terms : TransferTerms)
  /-- The node joins a token network. -/
  | connect (tokenNetwork : Address) (p : Policy)
  /-- The node leaves a token network. -/
  | leave (tokenNetwork : Address) (onlyReceiving : Bool)
  /-- The wait of the operation in this place ends. -/
  | wake (tokenNetwork : Address) (place : Nat) (w : Wake)

/-- A node that was told nothing yet has nothing to do. -/
def fresh (c : NodeConfig) : Workplace := ⟨Node.fresh c, fun _ => []⟩

def settings (w : Workplace) (tokenNetwork : Address) : ConnectionSettings :=
  w.node.config.connectionSettings tokenNetwork

/-- The operations on a token network, with what they share. -/
def desk (w : Workplace) (tokenNetwork : Address) : Desk :=
  ⟨w.node.membership tokenNetwork, (w.jobs tokenNetwork).map Job.phase⟩

end Workplace

namespace Jobs

/-- Replace the operations on a token network. -/
def put (jobs : Address → List Job) (tokenNetwork : Address) (those : List Job) :
    Address → List Job :=
  fun other => if other = tokenNetwork then those else jobs other

/-- One operation more on a token network. -/
def add (jobs : Address → List Job) (tokenNetwork : Address) (j : Job) : Address → List Job :=
  put jobs tokenNetwork (jobs tokenNetwork ++ [j])

/-- The operation that a duty asks for waits for the policy. -/
def undertake (jobs : Address → List Job) : Duty → Address → List Job
  | .act _ => jobs
  | .join tokenNetwork partner deposit =>
    add jobs tokenNetwork ⟨.joinChannel partner deposit, .queued (.joinChannel partner deposit)⟩
  | .retry tokenNetwork => add jobs tokenNetwork ⟨.retryConnect, .queued .retryConnect⟩

def undertakeAll (jobs : Address → List Job) (duties : List Duty) : Address → List Job :=
  duties.foldl undertake jobs

end Jobs

namespace Workplace

/-- The node starts to deal with a token network, if it did not yet, and starts an operation. -/
def start (w : Workplace) (tokenNetwork : Address) (op : Operation) : Workplace :=
  let n := w.node.manage tokenNetwork
  let (m, p) := (n.membership tokenNetwork).begin (w.settings tokenNetwork) op
  ⟨n.withMembership tokenNetwork m, Jobs.add w.jobs tokenNetwork ⟨op, p⟩⟩

/-- The operation in a place, if its wait can end so. -/
def ending? (w : Workplace) (tokenNetwork : Address) (place : Nat) (wk : Wake) : Option Job :=
  if (w.desk tokenNetwork).permits wk then (w.jobs tokenNetwork)[place]? else none

/-- The wait of an operation ends. -/
def resume (w : Workplace) (tokenNetwork : Address) (place : Nat) (wk : Wake) : Workplace :=
  match w.ending? tokenNetwork place wk with
  | none => w
  | some j =>
    let (m, p) := (w.node.membership tokenNetwork).resume (w.settings tokenNetwork) j.phase wk
    ⟨w.node.withMembership tokenNetwork m,
      Jobs.put w.jobs tokenNetwork ((w.jobs tokenNetwork).set place ⟨j.op, p⟩)⟩

/-- The node and its operations after a move. -/
def after (w : Workplace) : Move → Workplace
  | .handle e => ⟨(w.node.handle e).1, Jobs.undertakeAll w.jobs (w.node.handle e).2⟩
  | .round number =>
    ⟨{ w.node with broker := (w.node.broker.advance number).1 },
      Jobs.undertakeAll w.jobs (w.node.policies.keys.map .retry)⟩
  | .message sender m => ⟨w.node.after (.message sender m), w.jobs⟩
  | .pay terms => ⟨w.node.after (.pay terms), w.jobs⟩
  | .connect tokenNetwork p => w.start tokenNetwork (.connect p)
  | .leave tokenNetwork onlyReceiving => w.start tokenNetwork (.leave onlyReceiving)
  | .wake tokenNetwork place wk => w.resume tokenNetwork place wk

/-- The node and its operations after some moves. -/
def run (w : Workplace) (moves : List Move) : Workplace := moves.foldl after w

theorem run_append (w : Workplace) (first later : List Move) :
    w.run (first ++ later) = (w.run first).run later :=
  List.foldl_append

/-- Events that are handled one after the other. -/
theorem run_handle (w : Workplace) (events : List ChainEvent) :
    w.run (events.map .handle) = ⟨(w.node.handleAll events).1,
      Jobs.undertakeAll w.jobs (w.node.handleAll events).2⟩ := by
  induction events generalizing w with
  | nil => rfl
  | cons e rest ih =>
      have hrun : w.run ((e :: rest).map .handle) = (w.after (.handle e)).run (rest.map .handle) :=
        rfl
      have hall : (w.node.handleAll (e :: rest)).2
          = (w.node.handle e).2 ++ ((w.node.handle e).1.handleAll rest).2 := rfl
      rw [hrun, ih, hall, Jobs.undertakeAll, Jobs.undertakeAll, List.foldl_append]
      rfl

/-- A block comes down to its events and the rest of it, if no operation goes on meanwhile. -/
theorem run_block (w : Workplace) (number : Height) :
    run ⟨{ w.node with confirmation := (w.node.confirmation.release number).1 }, w.jobs⟩
      ((w.node.handedOut number).map .handle ++ [.round number])
      = ⟨(w.node.advance number).1,
        Jobs.undertakeAll w.jobs (w.node.advance number).2⟩ := by
  have hacts : ∀ (jobs : Address → List Job) (actions : List Action),
      Jobs.undertakeAll jobs (actions.map .act) = jobs := by
    intro jobs actions
    induction actions with
    | nil => rfl
    | cons a rest ih => exact ih
  let n : Node := { w.node with confirmation := (w.node.confirmation.release number).1 }
  have hduties : (w.node.advance number).2 = (n.handleAll (w.node.handedOut number)).2
      ++ ((n.handleAll (w.node.handedOut number)).1.broker.advance number).2.map .act
      ++ (n.handleAll (w.node.handedOut number)).1.policies.keys.map .retry := rfl
  rw [run_append, run_handle, hduties, Jobs.undertakeAll, Jobs.undertakeAll, List.foldl_append,
    List.foldl_append]
  change _ = Workplace.mk _ (Jobs.undertakeAll (Jobs.undertakeAll _ _) _)
  rw [hacts]
  rfl

end Workplace

/-! ### What is asked for, and what is deposited -/

/-- Something that happens when channels of partners are joined. -/
inductive Joining where
  /-- A partner put this deposit into a channel, and an operation that joins a channel with it
      was asked for. -/
  | invited (tokenNetwork partner : Address) (deposit : Amount)
  /-- The ledger took the deposit of such an operation into a channel. A channel gets this share
      then. -/
  | deposited (tokenNetwork partner : Address) (channelId : ChannelId) (amount share : Amount)
deriving DecidableEq

namespace Joining

def tokenNetwork : Joining → Address
  | invited tokenNetwork .. => tokenNetwork
  | deposited tokenNetwork .. => tokenNetwork

/-- Was the partner the reason? -/
def isInvitation (tokenNetwork partner : Address) : Joining → Bool
  | invited network other _ => decide (network = tokenNetwork ∧ other = partner)
  | deposited .. => false

/-- Is this a deposit that the partner was the reason for? -/
def isDeposit (tokenNetwork partner : Address) : Joining → Bool
  | invited .. => false
  | deposited network other .. => decide (network = tokenNetwork ∧ other = partner)

/-- Is this a deposit into the channel? -/
def goesInto (tokenNetwork : Address) (channelId : ChannelId) : Joining → Bool
  | invited .. => false
  | deposited network _ id .. => decide (network = tokenNetwork ∧ id = channelId)

/-- What was deposited. -/
def amount : Joining → Nat
  | invited .. => 0
  | deposited _ _ _ amount _ => amount.val

/-- The share of the channel. -/
def share : Joining → Amount
  | invited .. => 0
  | deposited _ _ _ _ share => share

/-- What was deposited into the channel. -/
def spentOn (log : List Joining) (tokenNetwork : Address) (channelId : ChannelId) : Nat :=
  ((log.filter (goesInto tokenNetwork channelId)).map amount).sum

end Joining

/-- The invitation that a duty answers. -/
def Duty.invitation? : Duty → Option Joining
  | join tokenNetwork partner deposit => some (.invited tokenNetwork partner deposit)
  | _ => none

namespace Job

/-- The deposit of an operation that joins a channel, if this is the end of its wait for it. -/
def deposit? (j : Job) (tokenNetwork : Address) (share : Amount) (wk : Wake) : Option Joining :=
  match j.op, j.phase, wk with
  | .joinChannel partner _, .joining channelId amount, .answered (.ok _) =>
    some (.deposited tokenNetwork partner channelId amount share)
  | _, _, _ => none

/-- May the operation still join a channel with the partner? -/
def mayJoin (partner : Address) (j : Job) : Bool :=
  match j.op, j.phase with
  | .joinChannel _ _, .ended _ => false
  | .joinChannel other _, _ => decide (other = partner)
  | _, _ => false

end Job

namespace Workplace

/-- What a move has to do with joining channels. -/
def entries (w : Workplace) : Move → List Joining
  | .handle e => (w.node.handle e).2.filterMap Duty.invitation?
  | .wake tokenNetwork place wk =>
    match w.ending? tokenNetwork place wk with
    | none => []
    | some j =>
      (j.deposit? tokenNetwork (w.node.membership tokenNetwork).policy.perPartner wk).toList
  | _ => []

/-- The invitations and deposits of a run, in order. -/
def log (w : Workplace) (moves : List Move) : List Joining := collect after entries w moves

/-- The end of a wait does nothing, or one operation goes on and the others stay. -/
theorem resume_cases (w : Workplace) (tokenNetwork : Address) (place : Nat) (wk : Wake) :
    (w.resume tokenNetwork place wk = w ∧ w.entries (.wake tokenNetwork place wk) = []) ∨
    ∃ before j later, w.jobs tokenNetwork = before ++ j :: later ∧
      (wk = .granted → ∀ j' ∈ w.jobs tokenNetwork, j'.phase.usesPolicy = false) ∧
      w.resume tokenNetwork place wk
        = ⟨w.node.withMembership tokenNetwork
            ((w.node.membership tokenNetwork).resume (w.settings tokenNetwork) j.phase wk).1,
          Jobs.put w.jobs tokenNetwork (before ++ ⟨j.op, ((w.node.membership tokenNetwork).resume
            (w.settings tokenNetwork) j.phase wk).2⟩ :: later)⟩ ∧
      w.entries (.wake tokenNetwork place wk)
        = (j.deposit? tokenNetwork (w.node.membership tokenNetwork).policy.perPartner
          wk).toList := by
  cases hending : w.ending? tokenNetwork place wk with
  | none =>
      refine Or.inl ⟨?_, ?_⟩
      · simp only [resume, hending]
      · simp only [entries, hending]
  | some j =>
      have hget := hending
      unfold ending? at hget
      split at hget
      · rename_i hpermits
        obtain ⟨before, later, hsplit, hset⟩ := Desk.exists_split_of_getElem? hget
        refine Or.inr ⟨before, j, later, hsplit, ?_, ?_, ?_⟩
        · rintro rfl j' hj'
          have hfree : (w.desk tokenNetwork).isTaken = false := by
            simpa [Desk.permits] using hpermits
          exact Desk.isTaken_eq_false_iff.mp hfree j'.phase (List.mem_map_of_mem hj')
        · simp only [resume, hending, hset]
        · simp only [entries, hending]
      · cases hget

end Workplace

/-! ### What one operation does -/

section Operations

variable {s : ConnectionSettings} {m : Membership}

/-- Who joins a channel joins the latest one with the partner. -/
theorem granted_joinChannel_joins (m : Membership) (partner : Address) (deposit : Amount) :
    (∃ result, (m.granted s (.joinChannel partner deposit)).2 = .ended result) ∨
    ∃ c, m.view.channelByPartner? s.tokenNetwork partner = some c ∧
      (m.granted s (.joinChannel partner deposit)).2
        = .joining c.id (m.joiningFunds s deposit) := by
  unfold Membership.granted
  dsimp only
  split
  · exact Or.inl ⟨_, rfl⟩
  · split
    · exact Or.inl ⟨_, rfl⟩
    · rename_i c hc
      exact Or.inr ⟨c, hc, rfl⟩

theorem joiningFunds_le_deposit (m : Membership) (deposit : Amount) :
    m.joiningFunds s deposit ≤ deposit := by
  rw [Word.le_iff, Membership.joiningFunds, val_min, val_min]
  omega

/-- Where an operation that joins a channel may stand. -/
def Job.Stands (j : Job) (tokenNetwork : Address) (m : Membership) : Prop :=
  ∀ partner deposit, j.op = .joinChannel partner deposit →
    j.phase = .queued (.joinChannel partner deposit) ∨ (∃ result, j.phase = .ended result) ∨
    ∃ channelId amount, j.phase = .joining channelId amount ∧ amount ≤ m.policy.perPartner ∧
      amount ≤ deposit ∧ m.view.LeadsTo tokenNetwork channelId partner

namespace Job

variable {j : Job} {tokenNetwork : Address}

/-- Who does not use the policy does not care about it. -/
theorem Stands.of_not_usesPolicy {m' : Membership} (h : j.Stands tokenNetwork m)
    (hfree : j.phase.usesPolicy = false) : j.Stands tokenNetwork m' := by
  intro partner deposit hop
  rcases h partner deposit hop with hqueued | hended | ⟨channelId, amount, hjoining, -⟩
  · exact Or.inl hqueued
  · exact Or.inr (Or.inl hended)
  · rw [hjoining] at hfree
    cases hfree

theorem Stands.evolve {m' : Membership} (h : j.Stands tokenNetwork m) {opened : List Opening}
    (hindexed : m.view.Indexed opened) (hview : m.view.Evolves m'.view)
    (hpolicy : m'.policy = m.policy) : j.Stands tokenNetwork m' := by
  intro partner deposit hop
  rcases h partner deposit hop with hqueued | hended |
    ⟨channelId, amount, hjoining, hshare, hdeposit, hleads⟩
  · exact Or.inl hqueued
  · exact Or.inr (Or.inl hended)
  · exact Or.inr (Or.inr ⟨channelId, amount, hjoining, hpolicy ▸ hshare, hdeposit,
      hleads.evolve hindexed hview⟩)

/-- The end of a wait keeps an operation where it may stand. -/
theorem Stands.resume (h : j.Stands s.tokenNetwork m) {opened : List Opening}
    (hindexed : m.view.Indexed opened) (wk : Wake) :
    Stands ⟨j.op, (m.resume s j.phase wk).2⟩ s.tokenNetwork (m.resume s j.phase wk).1 := by
  intro partner deposit hop
  change (m.resume s j.phase wk).2 = _ ∨ (∃ result, (m.resume s j.phase wk).2 = _) ∨
    ∃ channelId amount, (m.resume s j.phase wk).2 = _ ∧ _
  rcases h partner deposit hop with hqueued | ⟨result, hended⟩ |
    ⟨channelId, amount, hjoining, hshare, hdeposit, hleads⟩
  · rw [hqueued]
    cases wk with
    -- The share is fixed when the policy is got, and the channel is looked up in the view of that
    -- moment.
    | granted =>
        rcases granted_joinChannel_joins (s := s) m partner deposit with
          ⟨result, hended⟩ | ⟨c, hc, hjoining⟩
        · exact Or.inr (Or.inl ⟨result, hended⟩)
        · exact Or.inr (Or.inr ⟨c.id, _, hjoining, (joiningFunds_le m deposit).1,
            joiningFunds_le_deposit m deposit, hindexed.leadsTo hc⟩)
    | _ => exact Or.inl rfl
  · rw [hended]
    exact Or.inr (Or.inl ⟨result, by cases wk <;> rfl⟩)
  · rw [hjoining]
    cases wk with
    | answered answer => cases answer <;> exact Or.inr (Or.inl ⟨_, rfl⟩)
    | _ => exact Or.inr (Or.inr ⟨channelId, amount, rfl, hshare, hdeposit, hleads⟩)

theorem deposit?_eq_none {share : Amount} {wk : Wake}
    (h : ∀ partner deposit, j.op ≠ .joinChannel partner deposit) :
    j.deposit? tokenNetwork share wk = none := by
  unfold deposit?
  split
  · rename_i partner deposit channelId amount a hop hphase
    exact absurd hop (h partner deposit)
  · rfl

theorem mayJoin_eq_false {partner : Address}
    (h : ∀ partner deposit, j.op ≠ .joinChannel partner deposit) : mayJoin partner j = false := by
  unfold mayJoin
  split
  · rfl
  · rename_i other deposit hop _
    exact absurd hop (h other deposit)
  · rfl

/-- An operation deposits once at most, and only while it may still join a channel. -/
theorem Stands.deposits (h : j.Stands s.tokenNetwork m) (share : Amount) (wk : Wake)
    (partner : Address) :
    (j.deposit? s.tokenNetwork share wk).toList.countP (Joining.isDeposit s.tokenNetwork partner)
      + (mayJoin partner ⟨j.op, (m.resume s j.phase wk).2⟩).toNat
      ≤ (mayJoin partner j).toNat := by
  by_cases hjoins : ∀ partner deposit, j.op ≠ .joinChannel partner deposit
  · rw [deposit?_eq_none hjoins, mayJoin_eq_false hjoins,
      mayJoin_eq_false (j := ⟨j.op, (m.resume s j.phase wk).2⟩) hjoins]
    exact Nat.le_refl 0
  · -- A deposit is only made at the end, so it takes the place of the operation in the sum.
    obtain ⟨op, phase⟩ := j
    simp only [not_forall, not_not] at hjoins
    obtain ⟨other, deposit, rfl⟩ := hjoins
    rcases h other deposit rfl with rfl | ⟨result, rfl⟩ | ⟨channelId, amount, rfl, -⟩
    · cases wk with
      | granted =>
          change 0 + (mayJoin partner ⟨_, (m.granted s (.joinChannel other deposit)).2⟩).toNat ≤ _
          rcases granted_joinChannel_joins (s := s) m other deposit with
            ⟨result, hended⟩ | ⟨c, hc, hjoining⟩
          · rw [hended]
            exact Nat.zero_le _
          · rw [hjoining, Nat.zero_add]
            exact Nat.le_refl _
      | _ => exact Nat.le_of_eq (Nat.zero_add _)
    · cases wk <;> exact Nat.le_refl 0
    · cases wk with
      | answered answer =>
          cases answer with
          | error e => exact Nat.zero_le _
          | ok a =>
              have hcount : List.countP (Joining.isDeposit s.tokenNetwork partner)
                  [.deposited s.tokenNetwork other channelId amount share]
                  = (decide (other = partner)).toNat := by
                rw [List.countP_singleton]
                by_cases hother : other = partner <;> simp [Joining.isDeposit, hother]
              exact Nat.le_of_eq hcount
      | _ => exact Nat.le_of_eq (Nat.zero_add _)

end Job

end Operations

/-! ### What every move keeps -/

namespace Node

variable (n : Node)

theorem membership_withMembership_self (tokenNetwork : Address) (m : Membership) :
    (n.withMembership tokenNetwork m).membership tokenNetwork = m := by
  unfold membership withMembership
  dsimp only
  rw [SortedMap.get?_insert_self]
  rfl

theorem policy_withMembership_of_ne {tokenNetwork other : Address} (m : Membership)
    (h : other ≠ tokenNetwork) : ((n.withMembership tokenNetwork m).membership other).policy
      = (n.membership other).policy := by
  unfold membership withMembership
  dsimp only
  rw [SortedMap.get?_insert_of_ne h]

/-- A network that was not dealt with has the empty policy anyway. -/
theorem policy_manage (tokenNetwork other : Address) :
    ((n.manage tokenNetwork).membership other).policy = (n.membership other).policy := by
  unfold manage
  split
  · rfl
  · rename_i hnew
    unfold membership
    dsimp only
    by_cases h : other = tokenNetwork
    · subst h
      rw [SortedMap.contains, Option.not_isSome_iff_eq_none] at hnew
      rw [SortedMap.get?_insert_self, hnew]
      rfl
    · rw [SortedMap.get?_insert_of_ne h]

theorem handle_view (e : ChainEvent) : n.view.Evolves (n.handle e).1.view :=
  n.broker.after_evolves (.chain e)

end Node

namespace Jobs

variable (jobs : Address → List Job)

theorem put_self (tokenNetwork : Address) (those : List Job) :
    put jobs tokenNetwork those tokenNetwork = those :=
  if_pos rfl

theorem put_of_ne {tokenNetwork other : Address} (those : List Job) (h : other ≠ tokenNetwork) :
    put jobs tokenNetwork those other = jobs other :=
  if_neg h

end Jobs

namespace Joining

/-- A deposit is within its share and the deposit of a partner that invited, and it goes into a
    channel with this partner. -/
def Sound (v : NetworkView) (log : List Joining) : Joining → Prop
  | invited .. => True
  | deposited tokenNetwork partner channelId amount share =>
    amount ≤ share ∧ (∃ deposit, invited tokenNetwork partner deposit ∈ log ∧ amount ≤ deposit) ∧
      v.LeadsTo tokenNetwork channelId partner

theorem Sound.mono {v v' : NetworkView} {opened : List Opening} (hindexed : v.Indexed opened)
    (hview : v.Evolves v') {log log' : List Joining} (hlog : log ⊆ log') {e : Joining}
    (h : e.Sound v log) : e.Sound v' log' := by
  cases e with
  | invited => trivial
  | deposited tokenNetwork partner channelId amount share =>
      obtain ⟨hshare, ⟨deposit, hinvited, hdeposit⟩, hleads⟩ := h
      exact ⟨hshare, ⟨deposit, hlog hinvited, hdeposit⟩, hleads.evolve hindexed hview⟩

theorem Sound.amount_le {v : NetworkView} {log : List Joining} {e : Joining} (h : e.Sound v log) :
    e.amount ≤ e.share.val := by
  cases e with
  | invited => exact Nat.zero_le _
  | deposited tokenNetwork partner channelId amount share => exact h.1

/-- What concerns one network does not concern another one. -/
theorem countP_isDeposit_eq_zero {entries : List Joining} {tokenNetwork other : Address}
    (h : ∀ e ∈ entries, e.tokenNetwork = tokenNetwork) (hne : other ≠ tokenNetwork)
    (partner : Address) : entries.countP (isDeposit other partner) = 0 := by
  refine List.countP_eq_zero.mpr (fun e he hdeposit => hne ?_)
  rw [← h e he]
  cases e with
  | invited => cases hdeposit
  | deposited => exact (of_decide_eq_true hdeposit).1.symm

end Joining

/-- An operation deposits what it may. -/
theorem Job.Stands.sound {j : Job} {tokenNetwork : Address} {m : Membership}
    (h : j.Stands tokenNetwork m) {log : List Joining}
    (hasked : ∀ partner deposit, j.op = .joinChannel partner deposit →
      .invited tokenNetwork partner deposit ∈ log) {wk : Wake} {e : Joining}
    (he : j.deposit? tokenNetwork m.policy.perPartner wk = some e) :
    e.tokenNetwork = tokenNetwork ∧ e.Sound m.view log := by
  unfold deposit? at he
  split at he
  · rename_i partner deposit channelId amount a hop hphase
    cases he
    rcases h partner deposit hop with hqueued | ⟨result, hended⟩ |
      ⟨channelId', amount', hjoining, hshare, hdeposit, hleads⟩
    · rw [hphase] at hqueued
      cases hqueued
    · rw [hphase] at hended
      cases hended
    · rw [hphase] at hjoining
      cases hjoining
      exact ⟨rfl, hshare, ⟨deposit, hasked partner deposit hop, hdeposit⟩, hleads⟩
  · cases he

namespace Workplace

/-- What the operations on one token network and the log keep to. -/
structure Orderly (tokenNetwork : Address) (m : Membership) (jobs : List Job)
    (log : List Joining) : Prop where
  alone : Desk.Alone ⟨m, jobs.map Job.phase⟩
  stands : ∀ j ∈ jobs, j.Stands tokenNetwork m
  asked : ∀ j ∈ jobs, ∀ partner deposit, j.op = .joinChannel partner deposit →
    .invited tokenNetwork partner deposit ∈ log
  /-- Every deposit, and every operation that may still make one, has an invitation of its
      own. -/
  count : ∀ partner, log.countP (Joining.isDeposit tokenNetwork partner)
      + jobs.countP (Job.mayJoin partner)
    ≤ log.countP (Joining.isInvitation tokenNetwork partner)

/-- What the state and the log of a run keep to. -/
structure Booked (w : Workplace) (log : List Joining) : Prop where
  indexed : ∃ opened, w.node.view.Indexed opened
  orderly : ∀ tokenNetwork, Orderly tokenNetwork (w.node.membership tokenNetwork)
    (w.jobs tokenNetwork) log
  sound : ∀ e ∈ log, e.Sound w.node.view log

section Orderly

variable {tokenNetwork : Address} {m m' : Membership} {jobs : List Job} {log : List Joining}

theorem Orderly.evolve (h : Orderly tokenNetwork m jobs log) {opened : List Opening}
    (hindexed : m.view.Indexed opened) (hview : m.view.Evolves m'.view)
    (hpolicy : m'.policy = m.policy) : Orderly tokenNetwork m' jobs log where
  alone := h.alone
  stands := fun j hj => (h.stands j hj).evolve hindexed hview hpolicy
  asked := h.asked
  count := h.count

theorem Orderly.append (h : Orderly tokenNetwork m jobs log) {entries : List Joining}
    (hnone : ∀ partner, entries.countP (Joining.isDeposit tokenNetwork partner) = 0) :
    Orderly tokenNetwork m jobs (log ++ entries) where
  alone := h.alone
  stands := h.stands
  asked := fun j hj partner deposit hop => List.mem_append_left _ (h.asked j hj partner deposit hop)
  count := by
    intro partner
    have hbefore := h.count partner
    rw [List.countP_append, List.countP_append, hnone]
    omega

/-- One operation more, that was asked for if it joins a channel. -/
theorem Orderly.add (h : Orderly tokenNetwork m jobs log) {j : Job}
    (hfree : j.phase.usesPolicy = false) (hstands : j.Stands tokenNetwork m)
    (hasked : ∀ partner deposit, j.op = .joinChannel partner deposit →
      .invited tokenNetwork partner deposit ∈ log)
    (hcount : ∀ partner, log.countP (Joining.isDeposit tokenNetwork partner)
        + jobs.countP (Job.mayJoin partner) + (j.mayJoin partner).toNat
      ≤ log.countP (Joining.isInvitation tokenNetwork partner)) :
    Orderly tokenNetwork m (jobs ++ [j]) log where
  alone := by
    have halone : (jobs.map Job.phase).countP Phase.usesPolicy ≤ 1 := h.alone
    rw [Desk.Alone, List.map_append, List.countP_append, List.map_singleton,
      List.countP_singleton, hfree]
    exact halone
  stands := by
    intro j' hj'
    rcases List.mem_append.mp hj' with hj' | hj'
    · exact h.stands j' hj'
    · rw [List.mem_singleton.mp hj']
      exact hstands
  asked := by
    intro j' hj'
    rcases List.mem_append.mp hj' with hj' | hj'
    · exact h.asked j' hj'
    · rw [List.mem_singleton.mp hj']
      exact hasked
  count := by
    intro partner
    have hnew := hcount partner
    rw [List.countP_append, List.countP_singleton, ← Nat.add_assoc]
    cases hmay : j.mayJoin partner with
    | true => simpa [hmay] using hnew
    | false => simpa [hmay] using hnew

/-- The wait of one operation ends. -/
theorem Orderly.resume {s : ConnectionSettings} {before later : List Job} {j : Job} {wk : Wake}
    (h : Orderly s.tokenNetwork m (before ++ j :: later) log) {opened : List Opening}
    (hindexed : m.view.Indexed opened)
    (hfree : wk = .granted → ∀ j' ∈ before ++ j :: later, j'.phase.usesPolicy = false) :
    Orderly s.tokenNetwork (m.resume s j.phase wk).1
      (before ++ ⟨j.op, (m.resume s j.phase wk).2⟩ :: later)
      (log ++ (j.deposit? s.tokenNetwork m.policy.perPartner wk).toList) := by
  have hmem : ∀ {j' : Job}, j' ∈ before ++ later → j' ∈ before ++ j :: later :=
    ((List.sublist_cons_self j later).append_left before).mem
  have hj : j ∈ before ++ j :: later := List.mem_append_right _ List.mem_cons_self
  -- The operation itself, or one of the others.
  have hcases : ∀ {j' : Job}, j' ∈ before ++ (⟨j.op, (m.resume s j.phase wk).2⟩ : Job) :: later →
      j' = ⟨j.op, (m.resume s j.phase wk).2⟩ ∨ j' ∈ before ++ later := by
    intro j' hj'
    rcases List.mem_append.mp hj' with hj' | hj'
    · exact Or.inr (List.mem_append_left _ hj')
    · exact (List.mem_cons.mp hj').imp_right (fun hlater => List.mem_append_right _ hlater)
  refine ⟨?_, ?_, ?_, ?_⟩
  · have halone := h.alone
    rw [List.map_append, List.map_cons] at halone ⊢
    refine halone.resume wk (fun hgranted q hq => ?_)
    rw [← List.map_append] at hq
    obtain ⟨j', hj', rfl⟩ := List.mem_map.mp hq
    exact hfree hgranted j' (hmem hj')
  · intro j' hj'
    rcases hcases hj' with rfl | hother
    · exact (h.stands j hj).resume hindexed wk
    · have hstands := h.stands j' (hmem hother)
      rcases m.resume_cases s j.phase wk with ⟨op, -, hgranted, -⟩ | hsame
      · exact hstands.of_not_usesPolicy (hfree hgranted j' (hmem hother))
      · rw [hsame]
        exact hstands
  · intro j' hj' partner deposit hop
    refine List.mem_append_left _ ?_
    rcases hcases hj' with rfl | hother
    · exact h.asked j hj partner deposit hop
    · exact h.asked j' (hmem hother) partner deposit hop
  · intro partner
    have hbefore := h.count partner
    have hstep := (h.stands j hj).deposits m.policy.perPartner wk partner
    have hnat : ∀ b : Bool, (if b = true then 1 else 0) = b.toNat := by decide
    rw [List.countP_append, List.countP_cons, hnat] at hbefore
    rw [List.countP_append, List.countP_append, List.countP_append, List.countP_cons, hnat]
    omega

end Orderly

section Booked

variable {w : Workplace} {log : List Joining}

theorem booked_fresh (c : NodeConfig) : Booked (fresh c) [] where
  indexed := ⟨[], NetworkView.indexed_fresh _ _⟩
  orderly := fun _ =>
    { alone := Nat.zero_le 1
      stands := fun _ hj => nomatch hj
      asked := fun _ hj => nomatch hj
      count := fun _ => Nat.le_refl 0 }
  sound := fun _ he => nomatch he

/-- What the node does otherwise does not matter. -/
theorem Booked.withNode (h : Booked w log) {n : Node} (hview : w.node.view.Evolves n.view)
    (hpolicy : ∀ tokenNetwork,
      (n.membership tokenNetwork).policy = (w.node.membership tokenNetwork).policy) :
    Booked ⟨n, w.jobs⟩ log := by
  obtain ⟨opened, hindexed⟩ := h.indexed
  obtain ⟨opened', hindexed', -⟩ := hview opened hindexed
  refine ⟨⟨opened', hindexed'⟩, fun tokenNetwork => ?_, fun e he => ?_⟩
  · exact (h.orderly tokenNetwork).evolve hindexed hview (hpolicy tokenNetwork)
  · exact (h.sound e he).mono hindexed hview (List.Subset.refl _)

/-- What happens on one network leaves the others in order. -/
theorem Booked.put (h : Booked w log) {tokenNetwork : Address} {n : Node} {jobs : List Job}
    {entries : List Joining} (hview : w.node.view.Evolves n.view)
    (hpolicy : ∀ other, other ≠ tokenNetwork →
      (n.membership other).policy = (w.node.membership other).policy)
    (hentries : ∀ e ∈ entries, e.tokenNetwork = tokenNetwork ∧ e.Sound n.view (log ++ entries))
    (horderly : Orderly tokenNetwork (n.membership tokenNetwork) jobs (log ++ entries)) :
    Booked ⟨n, Jobs.put w.jobs tokenNetwork jobs⟩ (log ++ entries) := by
  obtain ⟨opened, hindexed⟩ := h.indexed
  obtain ⟨opened', hindexed', -⟩ := hview opened hindexed
  refine ⟨⟨opened', hindexed'⟩, fun other => ?_, fun e he => ?_⟩
  · dsimp only
    by_cases hne : other = tokenNetwork
    · subst hne
      rw [Jobs.put_self]
      exact horderly
    · rw [Jobs.put_of_ne _ _ hne]
      have hother : Orderly other (n.membership other) (w.jobs other) log :=
        (h.orderly other).evolve hindexed hview (hpolicy other hne)
      exact hother.append
        (Joining.countP_isDeposit_eq_zero (fun e he => (hentries e he).1) hne)
  · rcases List.mem_append.mp he with he | he
    · exact (h.sound e he).mono hindexed hview (List.subset_append_left _ _)
    · exact (hentries e he).2

theorem Booked.start (h : Booked w log) (tokenNetwork : Address) {op : Operation}
    (hop : ∀ partner deposit, op ≠ .joinChannel partner deposit) :
    Booked (w.start tokenNetwork op) log := by
  let n := w.node.manage tokenNetwork
  have hmanaged : (n.membership tokenNetwork).view = w.node.view :=
    congrArg Broker.view (w.node.manage_broker tokenNetwork)
  have hview : w.node.view.Evolves
      ((n.membership tokenNetwork).begin (w.settings tokenNetwork) op).1.view := by
    rw [← hmanaged]
    exact ((n.membership tokenNetwork).begin_switches
      (w.settings tokenNetwork) op).sameChannels.evolves
  obtain ⟨opened, hindexed⟩ := h.indexed
  have horderly : Orderly tokenNetwork
      ((n.membership tokenNetwork).begin (w.settings tokenNetwork) op).1 (w.jobs tokenNetwork)
      log :=
    (h.orderly tokenNetwork).evolve hindexed hview
      ((Desk.begin_shared (s := w.settings tokenNetwork) _ op).1.trans
        (w.node.policy_manage tokenNetwork tokenNetwork))
  have hput : Booked (w.start tokenNetwork op) (log ++ []) := by
    -- Nothing is written down: joining and leaving the network is no invitation.
    refine h.put hview (fun other hne => ?_) (fun _ he => nomatch he) ?_
    · exact (n.policy_withMembership_of_ne _ hne).trans (w.node.policy_manage tokenNetwork other)
    · rw [n.membership_withMembership_self, List.append_nil]
      refine horderly.add (Membership.begin_usesPolicy _ _ op)
        (fun partner deposit heq => absurd heq (hop partner deposit))
        (fun partner deposit heq => absurd heq (hop partner deposit)) (fun partner => ?_)
      rw [Job.mayJoin_eq_false hop]
      exact horderly.count partner
  rwa [List.append_nil] at hput

theorem Booked.resume (h : Booked w log) (tokenNetwork : Address) (place : Nat) (wk : Wake) :
    Booked (w.resume tokenNetwork place wk) (log ++ w.entries (.wake tokenNetwork place wk)) := by
  rcases w.resume_cases tokenNetwork place wk with
    ⟨hsame, hentries⟩ | ⟨before, j, later, hsplit, hfree, hresume, hentries⟩
  · rw [hentries, hsame, List.append_nil]
    exact h
  · let m := w.node.membership tokenNetwork
    let s := w.settings tokenNetwork
    obtain ⟨opened, hindexed⟩ := h.indexed
    have hview : w.node.view.Evolves (m.resume s j.phase wk).1.view :=
      (m.resume_switches s j.phase wk).sameChannels.evolves
    have horderly := h.orderly tokenNetwork
    rw [hsplit] at horderly hfree
    have hj : j ∈ before ++ j :: later := List.mem_append_right _ List.mem_cons_self
    rw [hentries, hresume]
    refine h.put hview (fun other hne => w.node.policy_withMembership_of_ne _ hne) ?_ ?_
    · intro e he
      obtain ⟨hnetwork, hsound⟩ := (horderly.stands j hj).sound (horderly.asked j hj)
        (Option.mem_toList.mp he)
      exact ⟨hnetwork, hsound.mono hindexed hview (List.subset_append_left _ _)⟩
    · rw [w.node.membership_withMembership_self]
      exact Orderly.resume (s := s) horderly hindexed hfree

theorem Booked.undertake (h : Booked w log) (d : Duty) :
    Booked ⟨w.node, Jobs.undertake w.jobs d⟩ (log ++ d.invitation?.toList) := by
  cases d with
  | act a => exact (List.append_nil log).symm ▸ h
  | join tokenNetwork partner deposit =>
      refine h.put (.refl _) (fun _ _ => rfl) ?_ ?_
      · intro e he
        rw [List.mem_singleton.mp he]
        exact ⟨rfl, trivial⟩
      · have horderly : Orderly tokenNetwork (w.node.membership tokenNetwork)
            (w.jobs tokenNetwork) (log ++ [.invited tokenNetwork partner deposit]) :=
          (h.orderly tokenNetwork).append (fun _ => rfl)
        refine horderly.add rfl (fun _ _ hop => by cases hop; exact Or.inl rfl) ?_ ?_
        · intro _ _ hop
          cases hop
          exact List.mem_append_right _ (List.mem_singleton.mpr rfl)
        · intro other
          have hbefore := (h.orderly tokenNetwork).count other
          rw [List.countP_append, List.countP_append]
          -- The invitation and the operation it leads to come together, and both count for one
          -- partner.
          by_cases hother : partner = other
          · simp [Job.mayJoin, Joining.isInvitation, Joining.isDeposit, hother]
            omega
          · simp [Job.mayJoin, Joining.isInvitation, Joining.isDeposit, hother]
            omega
  | retry tokenNetwork =>
      refine h.put (.refl _) (fun _ _ => rfl) (fun _ he => nomatch he) ?_
      refine Orderly.add ?_ rfl (fun _ _ hop => nomatch hop) (fun _ _ hop => nomatch hop) ?_
      · exact (h.orderly tokenNetwork).append (fun _ => rfl)
      · intro partner
        exact ((h.orderly tokenNetwork).append (fun _ => rfl)).count partner

theorem Booked.undertakeAll (h : Booked w log) (duties : List Duty) :
    Booked ⟨w.node, Jobs.undertakeAll w.jobs duties⟩
      (log ++ duties.filterMap Duty.invitation?) := by
  induction duties generalizing w log with
  | nil => exact (List.append_nil log).symm ▸ h
  | cons d rest ih =>
      have hrest := ih (h.undertake d)
      rw [List.append_assoc] at hrest
      have hmap : (d :: rest).filterMap Duty.invitation?
          = d.invitation?.toList ++ rest.filterMap Duty.invitation? := by
        rw [List.filterMap_cons]
        cases d.invitation? <;> rfl
      rw [hmap]
      exact hrest

theorem Booked.after (h : Booked w log) (move : Move) :
    Booked (w.after move) (log ++ w.entries move) := by
  have hquiet : ∀ {w' : Workplace}, Booked w' log → Booked w' (log ++ []) :=
    fun h' => (List.append_nil log).symm ▸ h'
  cases move with
  | handle e =>
      have hnode : Booked ⟨(w.node.handle e).1, w.jobs⟩ log :=
        h.withNode (w.node.handle_view e) (fun _ => rfl)
      exact hnode.undertakeAll (w.node.handle e).2
  | round number =>
      have hnode : Booked ⟨{ w.node with broker := (w.node.broker.advance number).1 }, w.jobs⟩
          log :=
        h.withNode (w.node.broker.after_evolves (.block number w.node.broker.transfers.keys))
          (fun _ => rfl)
      -- Every policy is looked at again, but no partner asked for that.
      have hretries : (w.node.policies.keys.map Duty.retry).filterMap Duty.invitation? = [] :=
        List.filterMap_eq_nil_iff.mpr (fun d hd => by
          obtain ⟨tokenNetwork, -, rfl⟩ := List.mem_map.mp hd
          rfl)
      have hround := hnode.undertakeAll (w.node.policies.keys.map .retry)
      rw [hretries] at hround
      exact hround
  | message sender m =>
      exact hquiet (h.withNode (w.node.broker.after_evolves (.message sender m)) (fun _ => rfl))
  | pay terms =>
      refine hquiet (h.withNode ?_ (fun tokenNetwork => ?_))
      · rcases w.node.after_broker (.pay terms) with hbroker | ⟨hnone, -⟩
        · have hview := w.node.broker.after_evolves (.pay terms)
          rw [Node.view, Node.view, hbroker]
          exact hview
        · cases hnone
      · rw [Node.after, Node.react, Node.pay]
        cases w.node.broker.pay terms <;> rfl
  | connect tokenNetwork p =>
      have hop : ∀ partner deposit, Operation.connect p ≠ .joinChannel partner deposit := by
        intro partner deposit heq
        cases heq
      exact hquiet (h.start tokenNetwork hop)
  | leave tokenNetwork onlyReceiving =>
      have hop : ∀ partner deposit,
          Operation.leave onlyReceiving ≠ .joinChannel partner deposit := by
        intro partner deposit heq
        cases heq
      exact hquiet (h.start tokenNetwork hop)
  | wake tokenNetwork place wk => exact h.resume tokenNetwork place wk

theorem Booked.run (h : Booked w log) (moves : List Move) :
    Booked (w.run moves) (log ++ w.log moves) := by
  induction moves generalizing w log with
  | nil => exact (List.append_nil log).symm ▸ h
  | cons move rest ih =>
      have hrest := ih (h.after move)
      rw [List.append_assoc] at hrest
      exact hrest

/-- There are at most as many deposits into a channel as invitations of its partner. -/
theorem Booked.count_goesInto (h : Booked w log) {tokenNetwork partner : Address}
    {channelId : ChannelId} (hleads : w.node.view.LeadsTo tokenNetwork channelId partner) :
    (log.filter (Joining.goesInto tokenNetwork channelId)).length
      ≤ log.countP (Joining.isInvitation tokenNetwork partner) := by
  have hdeposits : (log.filter (Joining.goesInto tokenNetwork channelId)).length
      ≤ log.countP (Joining.isDeposit tokenNetwork partner) := by
    rw [← List.countP_eq_length_filter]
    refine List.countP_mono_left (fun e he hinto => ?_)
    cases e with
    | invited => cases hinto
    | deposited network other id amount share =>
        -- One channel has one partner.
        obtain ⟨rfl, rfl⟩ := of_decide_eq_true hinto
        obtain ⟨-, -, c, hc, rfl⟩ := h.sound _ he
        obtain ⟨c', hc', rfl⟩ := hleads
        rw [hc] at hc'
        cases hc'
        exact decide_eq_true ⟨rfl, rfl⟩
  have hcount := (h.orderly tokenNetwork).count partner
  omega

end Booked

/-- An invitation is a deposit of the partner into a channel that is open and that we put nothing
    into, by what is in view. -/
theorem invited_of_handle {w : Workplace} {e : ChainEvent} {tokenNetwork partner : Address}
    {deposit : Amount} (h : .invited tokenNetwork partner deposit ∈ w.entries (.handle e)) :
    ∃ channelId block c, e = .channelNewDeposit tokenNetwork channelId partner deposit block ∧
      (w.node.view.apply e).channel? channelId = some c ∧ c.isOpen = true ∧
      c.ours.contractBalance = 0 := by
  obtain ⟨d, hd, hinvitation⟩ := List.mem_filterMap.mp h
  rcases List.mem_append.mp hd with hact | hanswer
  · obtain ⟨a, -, rfl⟩ := List.mem_map.mp hact
    cases hinvitation
  · cases e with
    | channelNewDeposit network channelId participant total block =>
        unfold Node.answerDeposit at hanswer
        dsimp only at hanswer
        split at hanswer
        · rename_i hguard
          rw [List.mem_singleton.mp hanswer] at hinvitation
          cases hinvitation
          -- The guard of the answer looks at the view after the event.
          have hunfunded := hguard.2.1
          unfold Node.isUnfunded at hunfunded
          split at hunfunded
          · rename_i c hc
            rw [Bool.and_eq_true, decide_eq_true_iff] at hunfunded
            exact ⟨channelId, block, c, rfl, hc, hunfunded⟩
          · cases hunfunded
        · cases hanswer
    | _ => cases hanswer

/-- What joining channels keeps to, in every run of a node. -/
structure JoiningLaw (c : NodeConfig) (moves : List Move) : Prop where
  /-- A partner invites with a deposit into a channel that is open and that we put nothing into,
      by what is in view then. -/
  invited : ∀ before e later, moves = before ++ .handle e :: later →
    ∀ tokenNetwork partner deposit,
    .invited tokenNetwork partner deposit ∈ ((fresh c).run before).entries (.handle e) →
    ∃ channelId block ch, e = .channelNewDeposit tokenNetwork channelId partner deposit block ∧
      (((fresh c).run before).node.view.apply e).channel? channelId = some ch ∧
      ch.isOpen = true ∧ ch.ours.contractBalance = 0
  /-- A deposit is one share at most, and the deposit of a partner that invited at most, and it
      goes into a channel with this partner. -/
  sound : ∀ e ∈ (fresh c).log moves, e.Sound ((fresh c).run moves).node.view
    ((fresh c).log moves)
  /-- There are as many deposits into a channel as invitations of its partner, at most. -/
  count : ∀ tokenNetwork channelId partner,
    ((fresh c).run moves).node.view.LeadsTo tokenNetwork channelId partner →
    (((fresh c).log moves).filter (Joining.goesInto tokenNetwork channelId)).length
      ≤ ((fresh c).log moves).countP (Joining.isInvitation tokenNetwork partner)
  /-- So as many shares are put into it at most. -/
  spent : ∀ tokenNetwork channelId partner (most : Amount),
    ((fresh c).run moves).node.view.LeadsTo tokenNetwork channelId partner →
    (∀ e ∈ (fresh c).log moves, e.goesInto tokenNetwork channelId = true →
      e.share ≤ most) →
    Joining.spentOn ((fresh c).log moves) tokenNetwork channelId
      ≤ ((fresh c).log moves).countP (Joining.isInvitation tokenNetwork partner) * most.val

/-- Every run keeps to the law. -/
theorem run_joiningLaw (c : NodeConfig) (moves : List Move) : JoiningLaw c moves := by
  have hbooked : Booked ((fresh c).run moves) ((fresh c).log moves) := (booked_fresh c).run moves
  refine ⟨fun _ _ _ _ _ _ _ => invited_of_handle, hbooked.sound,
    fun _ _ _ => hbooked.count_goesInto, ?_⟩
  intro tokenNetwork channelId partner most hleads hmost
  have hcount := hbooked.count_goesInto hleads
  have hsum : Joining.spentOn ((fresh c).log moves) tokenNetwork channelId
      ≤ (((fresh c).log moves).filter (Joining.goesInto tokenNetwork channelId)).length
        * most.val := by
    rw [← List.length_map Joining.amount, ← Nat.nsmul_eq_mul]
    refine List.sum_le_card_nsmul _ _ (fun a ha => ?_)
    obtain ⟨e, he, rfl⟩ := List.mem_map.mp ha
    obtain ⟨hlog, hinto⟩ := List.mem_filter.mp he
    exact Nat.le_trans (hbooked.sound e hlog).amount_le (hmost e hlog hinto)
  exact Nat.le_trans hsum (Nat.mul_le_mul_right _ hcount)

namespace DoubleJoin

def us : Address := .replicate 20 1

def partner : Address := .replicate 20 4

def tokenNetwork : Address := .replicate 20 11

def channelId : ChannelId := .replicate 32 4

/-- A third of what is not kept goes into each channel. -/
def config : NodeConfig := { NodeConfig.standard us with settleTimeout := 100 }

/-- The partner puts so much into the channel in all. -/
def funded (total : Amount) : Move :=
  .handle (.channelNewDeposit tokenNetwork channelId partner total 10)

/-- The operation in this place gets the policy, and then its answer. -/
def turn (place : Nat) (answer : LedgerAnswer) : List Move :=
  [.wake tokenNetwork place .granted, .wake tokenNetwork place (.answered (.ok answer))]

/-- A node joins a network that it knows nobody in. Then a partner opens a channel and deposits
    twice, in one block. -/
def moves : List Move :=
  .connect tokenNetwork (config.policy 1000) :: turn 0 (.opened (.replicate 32 0))
    ++ [.handle (.channelOpened tokenNetwork channelId partner us 100 10), funded 500, funded 600,
      .round 11] ++ turn 1 .done ++ turn 2 .done

/-- The node deposits its share twice. This is as much as the law allows. -/
theorem joins_twice : config.validate = .ok () ∧
    (config.policy 1000).perPartner = 200 ∧
    (fresh config).log moves =
      [.invited tokenNetwork partner 500, .invited tokenNetwork partner 600,
        .deposited tokenNetwork partner channelId 200 200,
        .deposited tokenNetwork partner channelId 200 200] ∧
    Joining.spentOn ((fresh config).log moves) tokenNetwork channelId = 400 :=
  ⟨by decide +kernel, by decide +kernel, by decide +kernel, by decide +kernel⟩

end DoubleJoin

end Workplace

end PaymentNetwork
