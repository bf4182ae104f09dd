import PaymentNetwork.Node.Basic
import PaymentNetwork.Proofs.Broker.Tracking
import PaymentNetwork.Proofs.Chain.Release
import PaymentNetwork.Proofs.Connection.Run

/-!
# Runs of a Node

What a node does, told in terms of its parts.

Events of the ledger come to a node when they happen, and to its broker when they are
confirmed. So a node has inputs of its own, and each of them comes down to some inputs of
the broker, and maybe one of the line of events that wait for confirmation. A block comes
down to the most: first the events that it confirms, then the block itself, which visits
all transfers that are in progress by then. With this, what was shown of runs of a broker
and of histories of the line holds of runs of a node.

The operations on token networks work on the same view. They switch automatic connection to
a network off and on there, and leave the channels alone, so no transfer sees them.

A transfer of a node runs on the facts that reach it through all this, and what it does to
collect is handed out.

## Main definitions

* `NodeInput`: Something that happens to a node.
* `Node.react`, `Node.after`, `Node.run`: What a node makes of it.
* `Node.moves`: What an input comes down to for the broker.
* `NodeInput.confirmation?`: What it comes down to for the line of events.
* `Node.factsOf`: The facts that reach a transfer.
* `Node.deeds`: What a node has to do to collect.

## Theorems

* `Node.mem_moves`: Where an input of the broker comes from.
* `Node.after_broker`, `Node.run_confirmation`: A node does what its parts do.
* `Node.run_disciplined`: The transfers of a node are in time.
* `Node.run_tracked`, `Node.run_does`: A transfer of a node runs on the facts that reach it,
  and what it does to collect is handed out.
-/

namespace PaymentNetwork

/-- Something that happens to a node. -/
inductive NodeInput where
  /-- An event of the ledger arrives. -/
  | push (e : ChainEvent)
  | block (number : Height)
  | message (sender : Address) (m : Message)
  | pay (terms : TransferTerms)
  /-- An operation on a token network starts. -/
  | start (tokenNetwork : Address) (op : Operation)
  /-- The wait of an operation on a token network ends. -/
  | wake (tokenNetwork : Address) (p : Phase) (w : Wake)

/-- What the input comes down to for the events that wait for confirmation. -/
def NodeInput.confirmation? : NodeInput → Option ConfirmationInput
  | push e => some (.arrive e)
  | block number => some (.release number)
  | _ => none

/-- What is done to collect, if the duty is to do that. -/
def Duty.deed? : Duty → Option Deed
  | act a => a.deed?
  | _ => none

namespace Broker

section SetBlocked

variable {revealTimeout : Height} {b : Broker}

/-- Switching automatic connection off or on leaves the transfers in time. -/
theorem Disciplined.setBlocked (h : Disciplined revealTimeout b) (tokenNetwork : Address)
    (blocked : Bool) :
    Disciplined revealTimeout { b with view := b.view.setBlocked tokenNetwork blocked } := by
  -- A network that is blocked has the channels that it had.
  have hchannels : (b.view.setBlocked tokenNetwork blocked).Holds
      (fun _ => Uniform revealTimeout) :=
    h.regular.holds.channels.congr (NetworkView.find?_setNetwork rfl)
  exact ⟨h.filed, ⟨h.regular.view, h.regular.holds.withView hchannels⟩, h.scheduled⟩

end SetBlocked

end Broker

namespace Node

/-! ### Inputs of a node -/

/-- What a node makes of an input. -/
def react (n : Node) : NodeInput → Node × List Duty
  | .push e => (n.push e, [])
  | .block number => n.advance number
  | .message sender m => n.receive sender m
  | .pay terms =>
    match n.pay terms with
    | .ok r => r
    | .error _ => (n, [])
  | .start tokenNetwork op =>
    let n' := n.manage tokenNetwork
    let m := ((n'.membership tokenNetwork).begin (n.config.connectionSettings tokenNetwork) op).1
    (n'.withMembership tokenNetwork m, [])
  | .wake tokenNetwork p w =>
    let m := ((n.membership tokenNetwork).resume (n.config.connectionSettings tokenNetwork) p w).1
    (n.withMembership tokenNetwork m, [])

/-- The node after an input. -/
def after (n : Node) (i : NodeInput) : Node := (n.react i).1

/-- The node after some inputs. -/
def run (n : Node) (inputs : List NodeInput) : Node := inputs.foldl after n

theorem run_append (n : Node) (first later : List NodeInput) :
    n.run (first ++ later) = (n.run first).run later :=
  List.foldl_append

/-- What a node has to do to collect because of some inputs, in order. -/
def deeds (n : Node) (inputs : List NodeInput) : List Deed :=
  collect after (fun n i => (n.react i).2.filterMap Duty.deed?) n inputs

/-- The events that a block hands out. -/
def handedOut (n : Node) (number : Height) : List ChainEvent :=
  (n.confirmation.release number).2.1

/-- What an input comes down to for the broker. -/
def moves (n : Node) : NodeInput → List BrokerInput
  | .block number =>
    let told := (n.handedOut number).map BrokerInput.chain
    told ++ [.block number (n.broker.run told).transfers.keys]
  | .message sender m => [.message sender m]
  | .pay terms => [.pay terms]
  | _ => []

variable (n : Node)

/-- Where an input of the broker comes from. An event is one that a block hands out. -/
theorem mem_moves {i : NodeInput} {j : BrokerInput} (h : j ∈ n.moves i) :
    (∃ number e, i = .block number ∧ e ∈ n.handedOut number ∧ j = .chain e) ∨
    (∃ number order, i = .block number ∧ j = .block number order) ∨
    (∃ sender m, i = .message sender m ∧ j = .message sender m) ∨
    ∃ terms, i = .pay terms ∧ j = .pay terms := by
  cases i with
  | block number =>
      rcases List.mem_append.mp h with htold | hblock
      · obtain ⟨e, he, rfl⟩ := List.mem_map.mp htold
        exact Or.inl ⟨number, e, rfl, he, rfl⟩
      · exact Or.inr (Or.inl ⟨number, _, rfl, List.mem_singleton.mp hblock⟩)
  | message sender m => exact Or.inr (Or.inr (Or.inl ⟨sender, m, rfl, List.mem_singleton.mp h⟩))
  | pay terms => exact Or.inr (Or.inr (Or.inr ⟨terms, rfl, List.mem_singleton.mp h⟩))
  | _ => cases h

theorem manage_broker (tokenNetwork : Address) : (n.manage tokenNetwork).broker = n.broker := by
  unfold manage
  split
  · rfl
  · rfl

theorem manage_confirmation (tokenNetwork : Address) :
    (n.manage tokenNetwork).confirmation = n.confirmation := by
  unfold manage
  split
  · rfl
  · rfl

/-- Handling events changes nothing but the broker, which learns of them in order. -/
theorem handleAll_fst (events : List ChainEvent) :
    (n.handleAll events).1 = { n with broker := n.broker.run (events.map .chain) } := by
  induction events generalizing n with
  | nil => rfl
  | cons e rest ih => exact ih (n.handle e).1

/-- Whatever the broker does because of some events is handed out. -/
theorem outputs_subset_handleAll (events : List ChainEvent) :
    (n.broker.outputs (events.map .chain)).map Duty.act ⊆ (n.handleAll events).2 := by
  induction events generalizing n with
  | nil => exact List.Subset.refl _
  | cons e rest ih =>
      have hfirst : (n.broker.react (.chain e)).2.map Duty.act ⊆ (n.handle e).2 :=
        List.subset_append_left _ _
      have houtputs : n.broker.outputs ((e :: rest).map .chain)
          = (n.broker.react (.chain e)).2 ++ (n.handle e).1.broker.outputs (rest.map .chain) := rfl
      have hall : (n.handleAll (e :: rest)).2
          = (n.handle e).2 ++ ((n.handle e).1.handleAll rest).2 := rfl
      rw [houtputs, List.map_append, hall]
      exact List.append_subset.mpr ⟨List.subset_append_of_subset_left _ hfirst,
        List.subset_append_of_subset_right _ (ih (n.handle e).1)⟩

theorem after_block (number : Height) :
    n.after (.block number) = { n with
      confirmation := (n.confirmation.release number).1
      broker := n.broker.run (n.moves (.block number)) } := by
  have hhandled := handleAll_fst { n with confirmation := (n.confirmation.release number).1 }
    (n.handedOut number)
  have hadvance : n.after (.block number) = { (handleAll
      { n with confirmation := (n.confirmation.release number).1 } (n.handedOut number)).1 with
      broker := ((handleAll { n with confirmation := (n.confirmation.release number).1 }
        (n.handedOut number)).1.broker.advance number).1 } := rfl
  -- The block is the last input that it comes down to.
  rw [hadvance, hhandled, moves, Broker.run_append]
  rfl

/-- A node does what its broker does, and switches automatic connection off and on. -/
theorem after_broker (i : NodeInput) :
    (n.after i).broker = n.broker.run (n.moves i) ∨
    (n.moves i = [] ∧ ∃ tokenNetwork blocked, (n.after i).broker
      = { n.broker with view := n.broker.view.setBlocked tokenNetwork blocked }) := by
  cases i with
  | push e => exact Or.inl rfl
  | block number =>
      rw [after_block]
      exact Or.inl rfl
  | message sender m => exact Or.inl rfl
  | pay terms =>
      refine Or.inl ?_
      have hmoves : n.broker.run (n.moves (.pay terms)) = (n.broker.react (.pay terms)).1 := rfl
      rw [hmoves, after, react, pay, Broker.react]
      cases n.broker.pay terms with
      | ok r => rfl
      | error e => rfl
  -- Of an operation the broker notices what becomes of the view.
  | start tokenNetwork op =>
      have hview : ((n.manage tokenNetwork).membership tokenNetwork).view = n.broker.view :=
        congrArg Broker.view (n.manage_broker tokenNetwork)
      have hbroker : (n.after (.start tokenNetwork op)).broker = { n.broker with
          view := (((n.manage tokenNetwork).membership tokenNetwork).begin
            (n.config.connectionSettings tokenNetwork) op).1.view } := by
        rw [← n.manage_broker tokenNetwork]
        rfl
      rcases ((n.manage tokenNetwork).membership tokenNetwork).begin_switches
        (n.config.connectionSettings tokenNetwork) op with hsame | ⟨blocked, hblocked⟩
      · rw [hbroker, hsame, hview]
        exact Or.inl rfl
      · rw [hbroker, hblocked, hview]
        exact Or.inr ⟨rfl, _, blocked, rfl⟩
  | wake tokenNetwork p w =>
      have hbroker : (n.after (.wake tokenNetwork p w)).broker = { n.broker with
          view := ((n.membership tokenNetwork).resume
            (n.config.connectionSettings tokenNetwork) p w).1.view } := rfl
      rcases (n.membership tokenNetwork).resume_switches
        (n.config.connectionSettings tokenNetwork) p w with hsame | ⟨blocked, hblocked⟩
      · rw [hbroker, hsame]
        exact Or.inl rfl
      · rw [hbroker, hblocked]
        exact Or.inr ⟨rfl, _, blocked, rfl⟩

/-- Whatever the broker does is handed out. -/
theorem outputs_subset_react (i : NodeInput) :
    (n.broker.outputs (n.moves i)).map Duty.act ⊆ (n.react i).2 := by
  cases i with
  | block number =>
      have hhandled := outputs_subset_handleAll
        { n with confirmation := (n.confirmation.release number).1 } (n.handedOut number)
      have hbroker := congrArg Node.broker (handleAll_fst
        { n with confirmation := (n.confirmation.release number).1 } (n.handedOut number))
      have hadvance : (n.react (.block number)).2 = (handleAll
          { n with confirmation := (n.confirmation.release number).1 } (n.handedOut number)).2
          ++ ((handleAll { n with confirmation := (n.confirmation.release number).1 }
            (n.handedOut number)).1.broker.advance number).2.map Duty.act
          ++ (handleAll { n with confirmation := (n.confirmation.release number).1 }
            (n.handedOut number)).1.policies.keys.map Duty.retry := rfl
      -- What the events ask for comes first, then what the block asks for, then the retries.
      rw [hadvance, hbroker, moves, Broker.outputs_append, Broker.outputs_singleton,
        List.map_append]
      exact List.append_subset.mpr
        ⟨List.subset_append_of_subset_left _ (List.subset_append_of_subset_left _ hhandled),
          List.subset_append_of_subset_left _ (List.subset_append_right _ _)⟩
  | message sender m =>
      rw [moves, Broker.outputs_singleton]
      exact List.Subset.refl _
  | pay terms =>
      rw [moves, Broker.outputs_singleton, react, pay, Broker.react]
      cases n.broker.pay terms with
      | ok r => exact List.Subset.refl _
      | error e => exact List.Subset.refl _
  | _ => exact List.nil_subset _

theorem deeds_subset_react (i : NodeInput) :
    Broker.deeds (n.broker.outputs (n.moves i)) ⊆ (n.react i).2.filterMap Duty.deed? := by
  intro d hd
  obtain ⟨a, ha, hdeed⟩ := List.mem_filterMap.mp hd
  exact List.mem_filterMap.mpr
    ⟨.act a, n.outputs_subset_react i (List.mem_map_of_mem ha), hdeed⟩

theorem after_confirmation (i : NodeInput) :
    (n.after i).confirmation = n.confirmation.run i.confirmation?.toList := by
  cases i with
  | block number =>
      rw [after_block]
      rfl
  | pay terms =>
      rw [after, react, pay]
      cases n.broker.pay terms with
      | ok r => rfl
      | error e => rfl
  | start tokenNetwork op => exact n.manage_confirmation tokenNetwork
  | _ => rfl

/-- The line of events goes through a history. -/
theorem run_confirmation (inputs : List NodeInput) :
    (n.run inputs).confirmation
      = n.confirmation.run (inputs.filterMap NodeInput.confirmation?) := by
  induction inputs generalizing n with
  | nil => rfl
  | cons i rest ih =>
      have hfirst := n.after_confirmation i
      have hrest : (n.run (i :: rest)).confirmation = _ := ih (n.after i)
      rw [hrest, hfirst, ← Confirmation.run_append, List.filterMap_cons]
      cases i.confirmation? with
      | none => rfl
      | some j => rfl

theorem run_push (n : Node) (e : ChainEvent) : (n.run [.push e]).broker = n.broker := rfl

theorem run_message (n : Node) (sender : Address) (m : Message) :
    (n.run [.message sender m]).broker = (n.broker.reaction (.message sender m)).outcome :=
  Broker.after_eq n.broker (.message sender m)

/-! ### The transfers of a node -/

/-- A block visits all transfers in progress. -/
theorem visitsAll_moves (i : NodeInput) : n.broker.VisitsAll (n.moves i) := by
  have hevents : ∀ (b : Broker) (events : List ChainEvent), b.VisitsAll (events.map .chain) := by
    intro b events
    induction events generalizing b with
    | nil => trivial
    | cons e rest ih => exact ⟨trivial, ih _⟩
  cases i with
  | block number =>
      exact Broker.visitsAll_append.mpr ⟨hevents _ _, Broker.visits_keys _ number, trivial⟩
  | message sender m => exact ⟨trivial, trivial⟩
  | pay terms => exact ⟨trivial, trivial⟩
  | _ => trivial

section Disciplined

variable {n : Node} {revealTimeout : Height}

theorem after_disciplined (h : Broker.Disciplined revealTimeout n.broker) (i : NodeInput) :
    Broker.Disciplined revealTimeout (n.after i).broker := by
  rcases n.after_broker i with heq | ⟨-, tokenNetwork, blocked, heq⟩
  · rw [heq]
    exact Broker.run_disciplined h (n.visitsAll_moves i)
  · rw [heq]
    exact h.setBlocked tokenNetwork blocked

/-- The transfers of a node are in time. -/
theorem run_disciplined (c : NodeConfig) (inputs : List NodeInput) :
    Broker.Disciplined c.revealTimeout ((fresh c).run inputs).broker := by
  induction inputs using List.reverseRec with
  | nil => exact Broker.disciplined_fresh c.ourAddress c.revealTimeout 0
  | append_singleton inputs i ih =>
      rw [run_append]
      exact after_disciplined ih i

end Disciplined

/-- The facts that an input makes reach the transfer of a key. -/
def facts (n : Node) (k : TransferKey) (i : NodeInput) : List Input :=
  n.broker.factsOf k (n.moves i)

/-- The facts that some inputs make reach the transfer of a key, in order. -/
def factsOf (n : Node) (k : TransferKey) (inputs : List NodeInput) : List Input :=
  collect after (fun n i => n.facts k i) n inputs

section Tracked

variable {n : Node} {k : TransferKey} {t : Transfer}

theorem after_tracked (h : n.broker.Tracked k t) (hf : n.broker.Filed) (i : NodeInput) :
    (n.after i).broker.Tracked k (Machine.run Transfer.step t (n.facts k i)) := by
  rcases n.after_broker i with heq | ⟨hmoves, tokenNetwork, blocked, heq⟩
  · rw [heq]
    exact h.run hf (n.moves i)
  · rw [heq, facts, hmoves]
    exact h

/-- A transfer of a node runs on the facts that reach it. -/
theorem run_tracked {revealTimeout : Height} (hn : Broker.Disciplined revealTimeout n.broker)
    (h : n.broker.Tracked k t) (inputs : List NodeInput) :
    (n.run inputs).broker.Tracked k (Machine.run Transfer.step t (n.factsOf k inputs)) := by
  induction inputs generalizing n t with
  | nil => exact h
  | cons i rest ih =>
      have hrest := ih (after_disciplined hn i) (after_tracked h hn.filed i)
      rw [← Machine.run_append] at hrest
      exact hrest

/-- What a transfer of a node does to collect is handed out. -/
theorem run_does {revealTimeout : Height} (hn : Broker.Disciplined revealTimeout n.broker)
    (h : n.broker.Tracked k t) (inputs : List NodeInput) :
    Effect.deeds (Machine.effects Transfer.step t (n.factsOf k inputs)) ⊆ n.deeds inputs := by
  induction inputs generalizing n t with
  | nil => exact List.nil_subset _
  | cons i rest ih =>
      have hrest := ih (after_disciplined hn i) (after_tracked h hn.filed i)
      have hfirst := List.Subset.trans (h.does hn.filed (n.moves i)) (n.deeds_subset_react i)
      have hfacts : n.factsOf k (i :: rest) = n.facts k i ++ (n.after i).factsOf k rest := rfl
      rw [hfacts, Machine.effects_append, Effect.deeds_append]
      exact List.append_subset.mpr ⟨List.subset_append_of_subset_left _ hfirst,
        List.subset_append_of_subset_right _ hrest⟩

end Tracked

end Node

end PaymentNetwork
