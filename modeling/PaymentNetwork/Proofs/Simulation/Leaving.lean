import PaymentNetwork.Proofs.NetworkView.Openings
import PaymentNetwork.Proofs.Simulation.Waits

/-!
# Leaving Until Everything Is Settled

What leaving a token network comes to, whatever happens meanwhile.

An operation that leaves has three parts. It waits for the policy; it closes channels, one after
the other; it looks again and again whether those that it closed are settled. Which channels it
closes is decided at one moment, when it gets the policy. Channels that are opened or closed later
make no difference, and a channel that cannot be closed is passed over and not waited for. So the
waits of the second part are the closings of that list, in its order, and the identifiers that
come out are those of the closings that succeeded.

The operation returns them only at a look that finds each of these channels settled or out of
view, and it returns them at the first such look. Looks are as many ticks apart as the settings
say, with one exception: if the clock ends between two looks then the second one comes early.
Whether this look finds everything settled or not, it is the last one. The next wait for ticks
would not begin, and so the operation fails instead of looking forever.

## Main definitions

* `leavingChannels`: The channels that leaving closes.
* `closedOf`: The identifiers of those that were closed.
* `AllSettled`: Channels are settled or out of view.
* `Checked`: What a look comes to.
* `LeavingLaw`: What an operation does that leaves.

## Theorems

* `Course.settlingLaw`: The looks.
* `Course.closing`, `Course.closes`: The closings.
* `through_leavingLaw`: The law for every operation that leaves, in any simulation.
* `MidSleep.returns_early`: The clock can end during a wait, and the operation succeeds.
-/

namespace PaymentNetwork

namespace NetworkView

/-- The channels that leaving a token network closes: the open ones, or those of them over which
    the partner sent something. -/
def leavingChannels (v : NetworkView) (tokenNetwork : Address) (onlyReceiving : Bool) :
    List Channel :=
  (v.openChannels tokenNetwork).filter fun c => !onlyReceiving || c.hasReceivedTransfers

/-- The channels with these identifiers are settled or not in view. -/
def AllSettled (v : NetworkView) (ids : List ChannelId) : Prop :=
  ∀ id ∈ ids, ∀ c, v.channel? id = some c → c.isSettled = true

theorem openChannels_setBlocked (v : NetworkView) (tokenNetwork : Address) (blocked : Bool) :
    (v.setBlocked tokenNetwork blocked).openChannels tokenNetwork
      = v.openChannels tokenNetwork := by
  rw [openChannels, channels, setBlocked, network_setNetwork_self]
  rfl

/-- A network lists the channels to close in the order of their identifiers. -/
theorem Indexed.leavingChannels_ordered {v : NetworkView} {opened : List Opening}
    (h : v.Indexed opened) (tokenNetwork : Address) (onlyReceiving : Bool) :
    (v.leavingChannels tokenNetwork onlyReceiving).Pairwise
      fun c d => compare c.id d.id = .lt :=
  ((h.channels_ordered tokenNetwork).filter _).filter _

end NetworkView

namespace Membership

theorem allSettled_iff (m : Membership) (ids : List ChannelId) :
    m.allSettled ids = true ↔ m.view.AllSettled ids := by
  unfold allSettled NetworkView.AllSettled
  rw [List.all_eq_true]
  refine forall₂_congr fun id _ => ?_
  cases m.view.channel? id with
  | none => simp
  | some c => simp

/-- A look leads to a wait or to the end. -/
theorem closeNext_nil (m : Membership) (ids : List ChannelId) :
    m.closeNext ids [] = .settling ids ∨ ∃ r, m.closeNext ids [] = .ended r := by
  cases hsettled : m.allSettled ids with
  | true => exact Or.inr ⟨.closed ids, if_pos hsettled⟩
  | false => exact Or.inl (if_neg (by simp [hsettled]))

/-- The operation that got the policy decides which channels it closes. -/
theorem granted_leave (s : ConnectionSettings) (m : Membership) (onlyReceiving : Bool) :
    ∃ m' : Membership, (m.granted s (.leave onlyReceiving)).2
      = m'.closeNext [] (m.view.leavingChannels s.tokenNetwork onlyReceiving) := by
  refine ⟨⟨m.view.setBlocked s.tokenNetwork true, { m.policy with channelTarget := 0 }⟩, ?_⟩
  -- The network is blocked first, and this changes nothing of what is open.
  rw [granted, NetworkView.leavingChannels]
  cases onlyReceiving with
  | true =>
      rw [if_pos rfl, ConnectionSettings.receivingChannels, NetworkView.openChannels_setBlocked]
      rfl
  | false =>
      rw [if_neg Bool.false_ne_true, NetworkView.openChannels_setBlocked]
      simp

end Membership

namespace Simulation

/-- The view at the end of a wait. -/
def Wait.view (w : Wait) : NetworkView := w.state.node.view

/-- Was the wait one for something that was carried out? -/
def Wait.isCarriedOut (w : Wait) : Bool :=
  match w.wake with
  | .answered (.ok _) => true
  | _ => false

/-- The request that closes a channel. -/
def closing (tokenNetwork : Address) (c : Channel) : Want :=
  .ledger (.closeChannel tokenNetwork c.id c.partner.address)

/-- The channels among those to be closed that were closed. -/
def closedOf (channels : List Channel) (closings : List Wait) : List ChannelId :=
  (channels.zip closings).filterMap fun e => if e.2.isCarriedOut then some e.1.id else none

/-- A look whether some channels are settled, and what it comes to: the operation returns them,
    or it waits for ticks. -/
def Checked (ticks : Count) (ids : List ChannelId) (view : NetworkView) (later : List Wait)
    (outcome? : Option TaskResult) : Prop :=
  (view.AllSettled ids ∧ EndsWith (.operation (.closed ids)) later outcome?) ∨
    (¬ view.AllSettled ids ∧ GoesOn (fun w => w.want = .ticks ticks) later outcome?)

/-- What an operation does once it closed some channels and waits for their settlement. -/
structure SettlingLaw (ticks : Count) (ids : List ChannelId) (view : NetworkView)
    (sleeps : List Wait) (outcome? : Option TaskResult) : Prop where
  first : Checked ticks ids view sleeps outcome?
  /-- All ticks of a wait pass as long as the clock runs. -/
  sleep : ∀ w ∈ sleeps, w.want = .ticks ticks ∧ w.ticks ≤ ticks.val ∧
    (w.state.clock.isRunning = true → w.ticks = ticks.val)
  /-- A wait ends with another look, or since there is no clock. -/
  next : ∀ before w later, sleeps = before ++ w :: later →
    (w.wake = .ticked true ∧ Checked ticks ids w.view later outcome?) ∨
      (w.wake = .ticked false ∧ w.state.clock.isRunning = false ∧
        EndsWith (.operation (.failed .clockStopped)) later outcome?)

/-- What an operation does that leaves and has some channels to close, from the moment when it has
    the policy: it closes them, and it waits. -/
structure LeavingLaw (c : NodeConfig) (tokenNetwork : Address) (channels : List Channel)
    (granted : Wait) (closings sleeps : List Wait) (outcome? : Option TaskResult) : Prop where
  policy : granted.want = .policy
  /-- Each of the channels is closed once, in order, as far as the operation got. -/
  closed : closings.map Wait.want = (channels.take closings.length).map (closing tokenNetwork)
  /-- The order is that of the identifiers, in any view that events made. -/
  ordered : ∀ opened, granted.view.Indexed opened →
    channels.Pairwise fun c d => compare c.id d.id = .lt
  unfinished : closings.length < channels.length → sleeps = [] ∧ outcome? = none
  settling : closings.length = channels.length →
    SettlingLaw c.settlePollTicks (closedOf channels closings)
      ((closings.map Wait.view).getLastD granted.view) sleeps outcome?
  /-- If the clock ended during a wait then no later one leads to a look. -/
  stopped : ∀ before w later, granted :: (closings ++ sleeps) = before ++ w :: later →
    w.state.clock.isRunning = false → ∀ v ∈ later, v.wake ≠ .ticked true
  /-- The channels that are returned are those that were closed, and they are settled or out of
      view. -/
  returned : ∀ ids, outcome? = some (.operation (.closed ids)) →
    closings.length = channels.length ∧ ids = closedOf channels closings ∧
    (((closings ++ sleeps).map Wait.view).getLastD granted.view).AllSettled ids
  /-- It fails for one reason only. -/
  failed : ∀ r, outcome? = some r → (∃ ids, r = .operation (.closed ids)) ∨
    r = .operation (.failed .clockStopped) ∧
      ∃ before w, sleeps = before ++ [w] ∧ w.wake = .ticked false

section Courses

variable {c : NodeConfig} {tokenNetwork : Address} {phase : Phase} {ids : List ChannelId}
  {p : Program} {before later waits : List Wait} {w : Wait}

theorem Course.operation (h : Course c (.operate tokenNetwork phase) waits p) :
    ∃ phase', p = .operate tokenNetwork phase' := by
  induction h with
  | start => exact ⟨phase, rfl⟩
  | wait _ _ ih =>
      obtain ⟨phase', rfl⟩ := ih
      exact ⟨_, rfl⟩

/-- Each wait takes an operation from place to place. -/
theorem Course.operates (h : Course c (.operate tokenNetwork phase) (before ++ w :: later) p) :
    ∃ phase', Course c (.operate tokenNetwork phase) before (.operate tokenNetwork phase') ∧
      w.Follows c before (.operate tokenNetwork phase') ∧
      Course c (.operate tokenNetwork (Membership.resume (c.connectionSettings tokenNetwork)
        (w.state.node.membership tokenNetwork) phase' w.wake).2) later p := by
  obtain ⟨q, hbefore, hfollows, hlater⟩ := h.split
  obtain ⟨phase', rfl⟩ := hbefore.operation
  have hsettings : w.state.settings tokenNetwork = c.connectionSettings tokenNetwork :=
    congrArg (NodeConfig.connectionSettings · tokenNetwork) hfollows.config
  refine ⟨phase', hbefore, hfollows, ?_⟩
  rw [← hsettings]
  exact hlater

theorem Course.operates_first (h : Course c (.operate tokenNetwork phase) (w :: later) p) :
    w.Follows c [] (.operate tokenNetwork phase) ∧
      Course c (.operate tokenNetwork (Membership.resume (c.connectionSettings tokenNetwork)
        (w.state.node.membership tokenNetwork) phase w.wake).2) later p := by
  obtain ⟨phase', hfirst, hfollows, hlater⟩ :=
    (show Course c (.operate tokenNetwork phase) ([] ++ w :: later) p from h).operates
  have hphase := hfirst.eq_of_nil
  rw [Program.operate.injEq] at hphase
  rw [hphase.2] at hfollows hlater
  exact ⟨hfollows, hlater⟩

/-- What a look comes to. -/
theorem Course.checked {m : Membership}
    (h : Course c (.operate tokenNetwork (m.closeNext ids [])) later p) :
    Checked c.settlePollTicks ids m.view later p.result? := by
  unfold Membership.closeNext at h
  cases hsettled : m.allSettled ids with
  | true =>
      rw [hsettled] at h
      exact Or.inl ⟨(m.allSettled_iff ids).mp hsettled, h.endsWith rfl rfl⟩
  | false =>
      rw [hsettled] at h
      refine Or.inr ⟨fun hall => ?_, (h.goesOn rfl).imp_right ?_⟩
      · rw [(m.allSettled_iff ids).mpr hall] at hsettled
        cases hsettled
      · rintro ⟨w, rest, hw, hfollows⟩
        exact ⟨w, rest, hw, hfollows.want⟩

/-- An operation that waits for a settlement does nothing else until it ends. -/
theorem Course.settles (h : Course c (.operate tokenNetwork phase) waits p)
    (hphase : phase = .settling ids ∨ ∃ r, phase = .ended r) :
    p = .operate tokenNetwork (.settling ids) ∨ ∃ r, p = .operate tokenNetwork (.ended r) := by
  induction h with
  | start =>
      rcases hphase with rfl | ⟨r, rfl⟩
      · exact Or.inl rfl
      · exact Or.inr ⟨r, rfl⟩
  | @wait before q w hcourse hfollows ih =>
      -- After a look that fails comes the same wait again, and after a result nothing.
      rcases ih with rfl | ⟨r, rfl⟩
      · have hends := hfollows.ends
        rw [hfollows.want] at hends
        cases hwake : w.wake with
        | ticked ok =>
            cases ok with
            | true =>
                rcases (w.state.node.membership tokenNetwork).closeNext_nil ids with hp | ⟨r, hp⟩
                · exact Or.inl (congrArg _ hp)
                · exact Or.inr ⟨r, congrArg _ hp⟩
            | false => exact Or.inr ⟨_, rfl⟩
        | _ =>
            rw [hwake] at hends
            cases hends
      · exact Or.inr ⟨r, rfl⟩

/-- Between two looks an operation waits for the settlement. -/
theorem Course.sleeps
    (h : Course c (.operate tokenNetwork phase) (before ++ w :: later) p)
    (hphase : phase = .settling ids ∨ ∃ r, phase = .ended r) :
    w.Follows c before (.operate tokenNetwork (.settling ids)) ∧
      Course c (.operate tokenNetwork (Membership.resume (c.connectionSettings tokenNetwork)
        (w.state.node.membership tokenNetwork) (.settling ids) w.wake).2) later p := by
  obtain ⟨phase', hbefore, hfollows, hlater⟩ := h.operates
  rcases hbefore.settles hphase with hp | ⟨r, hp⟩
  · rw [Program.operate.injEq] at hp
    rw [hp.2] at hfollows hlater
    exact ⟨hfollows, hlater⟩
  · -- What is over wants nothing, so this wait is none of it.
    have hends := hfollows.ends
    rw [hfollows.want, hp] at hends
    cases w.wake <;> cases hends

/-- The looks are made as the law says. -/
theorem Course.settlingLaw {m : Membership}
    (h : Course c (.operate tokenNetwork (m.closeNext ids [])) waits p) :
    SettlingLaw c.settlePollTicks ids m.view waits p.result? := by
  have hphase := m.closeNext_nil ids
  refine ⟨h.checked, fun w hw => ?_, ?_⟩
  · obtain ⟨before, later, rfl⟩ := List.append_of_mem hw
    obtain ⟨hfollows, -⟩ := h.sleeps hphase
    obtain ⟨hle, hall⟩ := hfollows.ticks _ hfollows.want
    exact ⟨hfollows.want, hle, fun hrunning => (hall hrunning).2⟩
  · rintro before w later rfl
    obtain ⟨hfollows, hlater⟩ := h.sleeps hphase
    have hends := hfollows.ends
    rw [hfollows.want] at hends
    cases hwake : w.wake with
    | ticked ok =>
        rw [hwake] at hlater
        cases ok with
        | true => exact Or.inl ⟨rfl, hlater.checked⟩
        | false =>
            refine Or.inr ⟨rfl, ?_, hlater.endsWith rfl rfl⟩
            -- With a clock that runs all the ticks would have passed.
            by_contra hrunning
            have hticked := ((hfollows.ticks _ hfollows.want).2 (by simpa using hrunning)).1
            rw [hwake] at hticked
            cases hticked
    | _ =>
        rw [hwake] at hends
        cases hends

theorem closedOf_nil (channels : List Channel) : closedOf channels [] = [] := by
  rw [closedOf, List.zip_nil_right]
  rfl

theorem closedOf_cons (ch : Channel) (channels : List Channel) (w : Wait) (closings : List Wait) :
    closedOf (ch :: channels) (w :: closings)
      = (if w.isCarriedOut then [ch.id] else []) ++ closedOf channels closings := by
  unfold closedOf
  rw [List.zip_cons_cons, List.filterMap_cons]
  cases w.isCarriedOut <;> rfl

/-- The channels are closed one after the other. -/
theorem Course.closing {m : Membership} {channels : List Channel}
    (h : Course c (.operate tokenNetwork (m.closeNext ids channels)) waits p) :
    ∃ closings sleeps, waits = closings ++ sleeps ∧
      closings.map Wait.want
        = (channels.take closings.length).map (Simulation.closing tokenNetwork) ∧
      (closings.length < channels.length → sleeps = [] ∧ p.result? = none) ∧
      (closings.length = channels.length →
        SettlingLaw c.settlePollTicks (ids ++ closedOf channels closings)
          ((closings.map Wait.view).getLastD m.view) sleeps p.result?) := by
  -- Each wait closes one channel, so the induction is on the channels that are left.
  induction channels generalizing m ids waits with
  | nil =>
      refine ⟨[], waits, rfl, rfl, nofun, fun _ => ?_⟩
      have hlaw := h.settlingLaw
      rw [← List.append_nil ids] at hlaw
      exact hlaw
  | cons ch rest ih =>
      cases waits with
      | nil =>
          rw [h.eq_of_nil]
          exact ⟨[], [], rfl, rfl, fun _ => ⟨rfl, rfl⟩, nofun⟩
      | cons w waits =>
          obtain ⟨hfollows, hlater⟩ := h.operates_first
          have hends := hfollows.ends
          rw [hfollows.want] at hends
          cases hwake : w.wake with
          | answered answer =>
              -- A channel that the ledger refused to close is passed over, and not among the closed
              -- ones.
              have hnext : (Membership.resume (c.connectionSettings tokenNetwork)
                  (w.state.node.membership tokenNetwork) (m.closeNext ids (ch :: rest)) w.wake).2
                  = (w.state.node.membership tokenNetwork).closeNext
                    (ids ++ if w.isCarriedOut then [ch.id] else []) rest := by
                rw [Wait.isCarriedOut, hwake]
                cases answer with
                | ok a => rfl
                | error e => rw [if_neg Bool.false_ne_true, List.append_nil]; rfl
              rw [hnext] at hlater
              obtain ⟨closings, sleeps, rfl, hwants, hunfinished, hsettling⟩ := ih hlater
              refine ⟨w :: closings, sleeps, rfl, ?_, fun hlt => ?_, fun heq => ?_⟩
              · rw [List.length_cons, List.take_succ_cons, List.map_cons, List.map_cons, hwants,
                  hfollows.want]
                rfl
              · exact hunfinished (Nat.lt_of_succ_lt_succ hlt)
              · rw [closedOf_cons, ← List.append_assoc, List.map_cons, List.getLastD_cons]
                exact hsettling (Nat.succ.inj heq)
          | _ =>
              rw [hwake] at hends
              cases hends

/-- Nothing is settled or not that is not there. -/
theorem SettlingLaw.of_nil {ticks : Count} {view view' : NetworkView} {sleeps : List Wait}
    {outcome? : Option TaskResult} (h : SettlingLaw ticks [] view sleeps outcome?) :
    SettlingLaw ticks [] view' sleeps outcome? := by
  have hall : ∀ v : NetworkView, v.AllSettled [] := fun v id hid => absurd hid List.not_mem_nil
  refine { h with first := h.first.imp ?_ ?_ }
  · rintro ⟨-, hends⟩
    exact ⟨hall view', hends⟩
  · rintro ⟨hnot, -⟩
    exact absurd (hall view) hnot

/-- What is returned is settled or out of view at the last look. -/
theorem SettlingLaw.returned {ticks : Count} {view : NetworkView} {sleeps : List Wait}
    {outcome? : Option TaskResult} (h : SettlingLaw ticks ids view sleeps outcome?)
    {ids' : List ChannelId} (hresult : outcome? = some (.operation (.closed ids'))) :
    ids' = ids ∧ ((sleeps.map Wait.view).getLastD view).AllSettled ids := by
  -- A result comes from a look that nothing follows: the first one, or the one after the last wait.
  have hlook : ∀ v : NetworkView, Checked ticks ids v [] outcome? →
      ids' = ids ∧ v.AllSettled ids := by
    rintro v (⟨hall, -, hclosed⟩ | ⟨-, ⟨-, hnone⟩ | ⟨w, rest, hw, -⟩⟩)
    · rw [hresult] at hclosed
      cases hclosed
      exact ⟨rfl, hall⟩
    · rw [hresult] at hnone
      cases hnone
    · cases hw
  rcases List.eq_nil_or_concat' sleeps with rfl | ⟨before, w, rfl⟩
  · exact hlook view h.first
  · rcases h.next before w [] rfl with ⟨-, hchecked⟩ | ⟨-, -, -, hfailed⟩
    · rw [List.map_append, List.map_singleton, List.getLastD_concat]
      exact hlook w.view hchecked
    · rw [hresult] at hfailed
      cases hfailed

/-- It fails only after a wait that had no clock. -/
theorem SettlingLaw.failed {ticks : Count} {view : NetworkView} {sleeps : List Wait}
    {outcome? : Option TaskResult} (h : SettlingLaw ticks ids view sleeps outcome?)
    {r : TaskResult} (hresult : outcome? = some r) : (∃ ids, r = .operation (.closed ids)) ∨
      r = .operation (.failed .clockStopped) ∧
        ∃ before w, sleeps = before ++ [w] ∧ w.wake = .ticked false := by
  have hlook : ∀ v : NetworkView, Checked ticks ids v [] outcome? →
      ∃ ids, r = .operation (.closed ids) := by
    rintro v (⟨-, -, hclosed⟩ | ⟨-, ⟨-, hnone⟩ | ⟨w, rest, hw, -⟩⟩)
    · rw [hresult, Option.some.injEq] at hclosed
      exact ⟨ids, hclosed⟩
    · rw [hresult] at hnone
      cases hnone
    · cases hw
  rcases List.eq_nil_or_concat' sleeps with rfl | ⟨before, w, rfl⟩
  · exact Or.inl (hlook view h.first)
  · rcases h.next before w [] rfl with ⟨-, hchecked⟩ | ⟨hwake, -, -, hfailed⟩
    · exact Or.inl (hlook w.view hchecked)
    · rw [hresult, Option.some.injEq] at hfailed
      exact Or.inr ⟨hfailed, before, w, rfl, hwake⟩

/-- An operation that closes channels from the first one on. What it saw before it began makes no
    difference, and it ends only after the last one. -/
theorem Course.closes {m : Membership} {channels : List Channel} (view : NetworkView)
    (h : Course c (.operate tokenNetwork (m.closeNext [] channels)) waits p) :
    ∃ closings sleeps, waits = closings ++ sleeps ∧
      closings.map Wait.want
        = (channels.take closings.length).map (Simulation.closing tokenNetwork) ∧
      (closings.length < channels.length → sleeps = [] ∧ p.result? = none) ∧
      (closings.length = channels.length →
        SettlingLaw c.settlePollTicks (closedOf channels closings)
          ((closings.map Wait.view).getLastD view) sleeps p.result?) ∧
      (p.result?.isSome = true → closings.length = channels.length) := by
  obtain ⟨closings, sleeps, hwaits, hwants, hunfinished, hsettling⟩ := h.closing
  refine ⟨closings, sleeps, hwaits, hwants, hunfinished, fun heq => ?_, fun hresult => ?_⟩
  · have hlaw := hsettling heq
    rw [List.nil_append] at hlaw
    cases closings with
    | nil =>
        rw [closedOf_nil] at hlaw ⊢
        exact hlaw.of_nil
    | cons w rest => exact hlaw
  · have hlength := congrArg List.length hwants
    rw [List.length_map, List.length_map, List.length_take] at hlength
    -- With a channel left to close there would be no result yet.
    by_contra hne
    rw [(hunfinished (by omega)).2] at hresult
    cases hresult

/-- An operation that leaves keeps to the law from the moment when it has the policy. -/
theorem Course.leavingLaw {onlyReceiving : Bool}
    (h : Course c (.operate tokenNetwork (.queued (.leave onlyReceiving))) waits p) :
    (waits = [] ∧ p.result? = none) ∨ ∃ granted closings sleeps,
      waits = granted :: (closings ++ sleeps) ∧
      LeavingLaw c tokenNetwork (granted.view.leavingChannels tokenNetwork onlyReceiving) granted
        closings sleeps p.result? := by
  cases waits with
  | nil =>
      rw [h.eq_of_nil]
      -- The operation waits for the policy.
      exact Or.inl ⟨rfl, rfl⟩
  | cons granted waits =>
      obtain ⟨hfollows, hlater⟩ := h.operates_first
      have hwant := hfollows.want
      have hends := hfollows.ends
      rw [hwant] at hends
      cases hwake : granted.wake with
      | granted =>
          rw [hwake] at hlater
          -- What becomes of the policy does not matter for what is closed.
          obtain ⟨m, hm⟩ : ∃ m : Membership, (Membership.granted (c.connectionSettings tokenNetwork)
              (granted.state.node.membership tokenNetwork) (.leave onlyReceiving)).2
              = m.closeNext [] (granted.view.leavingChannels tokenNetwork onlyReceiving) :=
            Membership.granted_leave _ _ _
          have hcourse : Course c (.operate tokenNetwork
              (m.closeNext [] (granted.view.leavingChannels tokenNetwork onlyReceiving))) waits p :=
            hm ▸ hlater
          obtain ⟨closings, sleeps, rfl, hwants, hunfinished, hlaw, hfull⟩ :=
            hcourse.closes granted.view
          refine Or.inr ⟨granted, closings, sleeps, rfl, hwant, hwants, fun opened hindexed =>
            hindexed.leavingChannels_ordered tokenNetwork onlyReceiving, hunfinished, hlaw, ?_, ?_,
            ?_⟩
          · intro before w later hsplit hstopped
            rw [hsplit] at h
            exact h.stopped hstopped
          · intro ids hresult
            have hlength := hfull (Option.isSome_of_eq_some hresult)
            obtain ⟨hids, hall⟩ := (hlaw hlength).returned hresult
            refine ⟨hlength, hids, ?_⟩
            rw [hids]
            simpa using hall
          · intro r hresult
            exact (hlaw (hfull (Option.isSome_of_eq_some hresult))).failed hresult
      | _ =>
          rw [hwake] at hends
          cases hends

end Courses

/-- Every operation that leaves keeps to the law, whatever happens around it, and does what its
    journal says. -/
theorem through_leavingLaw {c : NodeConfig} {height : Height} {before : List Act} {s : Simulation}
    (hs : (fresh c height).through before = s) {id : Nat} {t : Task} {tokenNetwork : Address}
    {onlyReceiving : Bool} (ht : s.tasks.get? id = some t)
    (hprogram : t.program = .start tokenNetwork (.leave onlyReceiving)) (hidle : t.stage = .idle)
    (acts : List Act) :
    (((s.journal id acts).waits = [] ∧ (s.through acts).outcome? id = none) ∨
      ∃ granted closings sleeps,
        (s.journal id acts).waits = granted :: (closings ++ sleeps) ∧
        LeavingLaw c tokenNetwork (granted.view.leavingChannels tokenNetwork onlyReceiving) granted
          closings sleeps ((s.through acts).outcome? id)) ∧
      ∀ t', (s.through acts).mover? id .move = some t' → s.Turn id acts t' := by
  have hbegun : t.program.begun = .operate tokenNetwork (.queued (.leave onlyReceiving)) := by
    rw [hprogram]
    rfl
  have hstanding := standing_through hs ht hidle (by rw [hbegun]; rfl) acts
  rw [hbegun] at hstanding
  obtain ⟨p, -, hcourse, hstands⟩ := hstanding.place
  rw [hstands.outcome?_eq]
  exact ⟨hcourse.leavingLaw, fun t' hmover => hstanding.turn hmover⟩

/-! ### The clock ends between two looks -/

namespace MidSleep

/-- There are three ticks between two looks. -/
def config : NodeConfig := { (default : NodeConfig) with settlePollTicks := 3 }

def network : Address := ⟨List.replicate 20 1, rfl⟩

def partner : Address := ⟨List.replicate 20 2, rfl⟩

def channel : ChannelId := ⟨List.replicate 32 3, rfl⟩

/-- Some events are seen. -/
def showing (s : Simulation) (events : List ChainEvent) : Act :=
  .surround { s with node := s.node.setView (events.foldl NetworkView.apply s.node.view) }

/-- A node with one open channel leaves. -/
def before : List Act :=
  [showing (fresh config 5) [.channelOpened network channel config.ourAddress partner 100 1],
    .spawn (.start network (.leave false)) none]

def start : Simulation := (fresh config 5).through before

/-- It closes the channel, and waits for the first of three ticks. -/
def sleeping : List Act := List.replicate 14 .move

/-- The channel is settled, and the clock ends. -/
def acts : List Act :=
  sleeping ++ showing (start.through sleeping)
    [.channelClosed network channel config.ourAddress 6, .channelSettled network channel 106] ::
    .closeClock :: List.replicate 14 .move

theorem through_leavingLaw_midSleep :
    (start.tasks.get? 0 = some ⟨.start network (.leave false), .idle, none, false⟩) ∧
    (((start.journal 0 acts).waits = [] ∧ (start.through acts).outcome? 0 = none) ∨
      ∃ granted closings sleeps, (start.journal 0 acts).waits = granted :: (closings ++ sleeps) ∧
        LeavingLaw config network (granted.view.leavingChannels network false) granted closings
          sleeps ((start.through acts).outcome? 0)) :=
  ⟨rfl, (through_leavingLaw (rfl : (fresh config 5).through before = start)
    (t := ⟨.start network (.leave false), .idle, none, false⟩) rfl rfl rfl acts).1⟩

/-- The clock ended during the wait, after none of three ticks, and the operation succeeds. -/
theorem returns_early :
    (start.journal 0 acts).waits.map (fun w => (w.want, w.ticks, w.state.clock.isRunning))
      = [(.policy, 0, true), (.ledger (.closeChannel network channel partner), 0, true),
        (.ticks 3, 0, false)] ∧
    (start.through acts).outcome? 0 = some (.operation (.closed [channel])) :=
  ⟨rfl, rfl⟩

end MidSleep

end Simulation

end PaymentNetwork
