import PaymentNetwork.Bytes
import PaymentNetwork.Sorting
import PaymentNetwork.Word

/-!
# Candidate Routes

The channels through which a node could send a payment on, tried best first.

The candidates are sorted once, by decreasing balance. A route leaves the
available ones when it is tried or found unusable, and never comes back: an
unusable one is kept among the ignored, a failed one among the canceled. So no
channel is tried twice for one payment.

## Main definitions

* `Route`: A channel as the next hop of a payment.
* `Routes`: The candidates of one payment and what became of them.
* `Routes.popBest`: Take the best usable candidate.

## Theorems

* `popBest_length`: Taking a route shortens the list of available ones.
-/

namespace PaymentNetwork

/-- A channel as the next hop of a payment. -/
structure Route where
  /-- The node on the other side of the channel. -/
  node : Address
  channelId : ChannelId
  /-- What can be locked in the channel. -/
  availableBalance : Amount
  revealTimeout : Height
  settleTimeout : Height
  /-- The block at which the channel was closed, if it was. -/
  closedBlock? : Option Height
deriving DecidableEq

namespace Route

/-- Is the channel of the route open? -/
def isOpen (r : Route) : Bool := r.closedBlock?.isNone

end Route

/-- The candidate routes of one payment. -/
structure Routes where
  available : List Route
  ignored : List Route
  canceled : List Route
deriving DecidableEq

namespace Routes

/-- All candidates available, those with more balance first. Candidates of equal
    balance keep their order. -/
def ofCandidates (candidates : List Route) : Routes where
  available := sortBy (fun a b => decide (b.availableBalance ≤ a.availableBalance)) candidates
  ignored := []
  canceled := []

/-- Take the first usable candidate. Those skipped on the way are ignored from
    then on. -/
def popBest (rs : Routes) (usable : Route → Bool) : Option Route × Routes :=
  let skipped := rs.available.takeWhile (fun r => !usable r)
  let rest := rs.available.dropWhile (fun r => !usable r)
  (rest.head?, { rs with available := rest.tail, ignored := rs.ignored ++ skipped })

/-- Remember a route that failed. -/
def cancel (rs : Routes) (r : Route) : Routes := { rs with canceled := rs.canceled ++ [r] }

/-- Is no candidate left? -/
def isExhausted (rs : Routes) : Bool := rs.available.isEmpty

theorem popBest_length (rs : Routes) (usable : Route → Bool) :
    (rs.popBest usable).2.available.length + (rs.popBest usable).1.toList.length
      ≤ rs.available.length := by
  have h := (List.dropWhile_sublist (l := rs.available) (fun r => !usable r)).length_le
  simp only [popBest]
  cases hd : rs.available.dropWhile (fun r => !usable r) with
  | nil => simp
  | cons r rest =>
      rw [hd] at h
      simpa using h

end Routes

end PaymentNetwork
