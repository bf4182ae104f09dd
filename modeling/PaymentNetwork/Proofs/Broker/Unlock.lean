import PaymentNetwork.Proofs.Broker.Run
import PaymentNetwork.Proofs.Channel.History

/-!
# One Unlock

What a broker makes of a single unlock, whoever sent it.

An unlock goes two ways. By its balance proof it finds a channel, which checks it
and turns a pending lock into a transferred amount. By the hash of its secret it
finds the transfers, and of those it completes every one that waits for the sender.
The two ways meet nowhere: the transfer does not ask over which channel the unlock
came, and the channel does not know the transfer.

## Main definitions

* `Broker.Filed`: Transfers are in progress, and found under their own keys.
* `Broker.TakesUnlock`: Does a channel with the sender take the unlock?
* `NetworkView.Unlocks`: A channel lost a lock and transferred an amount.

## Theorems

* `Broker.feed_unlock`, `Broker.feedAll_unlock`: Which transfers are left when one
  was told, or some.
* `Broker.receive_unlock`: What an unlock does to the channels and the transfers.
* `Broker.get?_unlock_eq_none_iff`: When an unlock ends a transfer.
* `Broker.receive_unlock_unlocks`: Which lock it turned into a transferred amount.
-/

namespace PaymentNetwork

namespace NetworkView

/-- The partner's lock of this hash left the channel, and the amount was
    transferred. -/
def Unlocks (v v' : NetworkView) (channelId : ChannelId) (secretHash : SecretHash)
    (amount : Amount) : Prop :=
  ∃ c c' l, v.channel? channelId = some c ∧ v'.channel? channelId = some c' ∧
    c.partner.pendingLocks.get? secretHash = some l ∧
    c'.partner.pendingLocks.get? secretHash = none ∧
    c'.partner.transferredAmount.val = c.partner.transferredAmount.val + amount.val

/-- The amount that was transferred is the only one. -/
theorem Unlocks.amount_eq {v v' : NetworkView} {channelId : ChannelId}
    {secretHash secretHash' : SecretHash} {amount amount' : Amount}
    (h : v.Unlocks v' channelId secretHash amount)
    (h' : v.Unlocks v' channelId secretHash' amount') : amount = amount' := by
  rcases h with ⟨c₁, c₁', l₁, hc₁, hc₁', -, -, ht₁⟩
  rcases h' with ⟨c₂, c₂', l₂, hc₂, hc₂', -, -, ht₂⟩
  rw [hc₁, Option.some.injEq] at hc₂
  rw [hc₁', Option.some.injEq] at hc₂'
  subst hc₂ hc₂'
  rw [Word.ext_iff]
  omega

end NetworkView

namespace Broker

/-- The transfers are in progress, each under its own key. -/
def Filed (b : Broker) : Prop :=
  ∀ k t, b.transfers.get? k = some t → t.key = k ∧ t.isTerminal = false

theorem Holds.toFiled {P : ChannelId → Channel → Prop} {R : Transfer → Prop} {b : Broker}
    (h : Holds P R b) : b.Filed :=
  fun k t ht => ⟨h.filed k t ht, h.inProgress k t ht⟩

/-! ### Telling the transfers -/

theorem feed_of_none {b : Broker} {key : TransferKey} (h : b.transfers.get? key = none)
    (i : Input) : (b.feed i key).1 = b := by
  rw [feed, h]

theorem feed_of_quiet {b : Broker} {key : TransferKey} {t : Transfer} {i : Input}
    (h : b.transfers.get? key = some t) (hquiet : (t.step i).2.all Effect.isQuiet = true) :
    (b.feed i key).1 = b.keep (t.step i).1 := by
  rw [feed, h]
  exact settle_of_quiet b _ hquiet

theorem keep_view (b : Broker) (t : Transfer) : (b.keep t).view = b.view := by
  unfold keep
  dsimp only
  split
  · rfl
  · rfl

theorem keep_block (b : Broker) (t : Transfer) : (b.keep t).block = b.block := by
  unfold keep
  dsimp only
  split
  · rfl
  · rfl

theorem get?_keep_of_isTerminal {b : Broker} {t : Transfer} (h : t.isTerminal = true)
    (k : TransferKey) :
    (b.keep t).transfers.get? k = if k = t.key then none else b.transfers.get? k := by
  unfold keep
  dsimp only
  rw [if_pos h]
  by_cases hk : k = t.key
  · rw [if_pos hk, hk]
    exact SortedMap.get?_erase_self _ _
  · rw [if_neg hk]
    exact SortedMap.get?_erase_of_ne hk

theorem get?_keep_of_not_isTerminal {b : Broker} {t : Transfer} (h : t.isTerminal = false)
    (k : TransferKey) :
    (b.keep t).transfers.get? k = if k = t.key then some t else b.transfers.get? k := by
  unfold keep
  dsimp only
  rw [if_neg (Bool.eq_false_iff.mp h)]
  by_cases hk : k = t.key
  · rw [if_pos hk, hk]
    exact SortedMap.get?_insert_self _ _ _
  · rw [if_neg hk]
    exact SortedMap.get?_insert_of_ne hk

section Told

variable {b : Broker} {u : Unlock} (sender : Address)

/-- A told transfer that waited for the sender completes, and its key is free. -/
theorem feed_unlock_of_expects (hf : b.Filed) {key : TransferKey} {s : Transfer}
    (hs : b.transfers.get? key = some s) (hkey : key.secretHash = hashSecret u.secret)
    (hexpects : s.Expects sender) :
    (b.feed (.proofReceived ⟨sender, hashSecret u.secret, .unlock u⟩) key).1.view = b.view ∧
    ∀ k, (b.feed (.proofReceived ⟨sender, hashSecret u.secret, .unlock u⟩) key).1.transfers.get? k
      = if k = key then none else b.transfers.get? k := by
  have hfiled := (hf key s hs).1
  have hhash : hashSecret u.secret = s.secretHash := by
    rw [← hkey, ← hfiled, Transfer.key]
  rw [hhash]
  have hstep := Transfer.step_unlock_of_expects u hexpects
  rw [feed_of_quiet hs hstep.2]
  refine ⟨keep_view b _, fun k => ?_⟩
  rw [get?_keep_of_isTerminal (Transfer.isTerminal_of_isCompleted hstep.1), Transfer.step_key,
    hfiled]

/-- Any other told transfer is put back as it was. -/
theorem feed_unlock_of_not_expects (hf : b.Filed) {key : TransferKey} {s : Transfer}
    (hs : b.transfers.get? key = some s) (hkey : key.secretHash = hashSecret u.secret)
    (hexpects : ¬ s.Expects sender) :
    (b.feed (.proofReceived ⟨sender, hashSecret u.secret, .unlock u⟩) key).1.view = b.view ∧
    ∀ k, (b.feed (.proofReceived ⟨sender, hashSecret u.secret, .unlock u⟩) key).1.transfers.get? k
      = b.transfers.get? k := by
  have hfiled := hf key s hs
  have hhash : hashSecret u.secret = s.secretHash := by
    rw [← hkey, ← hfiled.1, Transfer.key]
  have hstep := Transfer.step_unlock_of_not_expects u hexpects
  have hquiet : (s.step (.proofReceived ⟨sender, s.secretHash, .unlock u⟩)).2.all
      Effect.isQuiet = true := by
    rw [hstep]
    rfl
  rw [hhash, feed_of_quiet hs hquiet, hstep]
  refine ⟨keep_view b _, fun k => ?_⟩
  rw [get?_keep_of_not_isTerminal hfiled.2, hfiled.1]
  by_cases hk : k = key
  · rw [if_pos hk, hk, hs]
  · rw [if_neg hk]

/-- Of the transfers on the secret, the told one is gone if it waited for the
    sender. -/
theorem feed_unlock (hf : b.Filed) {key : TransferKey}
    (hkey : key.secretHash = hashSecret u.secret) :
    (b.feed (.proofReceived ⟨sender, hashSecret u.secret, .unlock u⟩) key).1.view = b.view ∧
    ∀ k t, (b.feed (.proofReceived ⟨sender, hashSecret u.secret, .unlock u⟩) key).1.transfers.get? k
        = some t ↔
      b.transfers.get? k = some t ∧ ¬ (k = key ∧ t.Expects sender) := by
  cases hs : b.transfers.get? key with
  | none =>
      rw [feed_of_none hs]
      refine ⟨rfl, fun k t => ⟨fun ht => ⟨ht, ?_⟩, And.left⟩⟩
      rintro ⟨rfl, -⟩
      rw [hs] at ht
      cases ht
  | some s =>
      -- Whatever is found under the told key is the told transfer.
      have hself : ∀ t, b.transfers.get? key = some t → t = s := by
        intro t ht
        rw [hs] at ht
        cases ht
        rfl
      by_cases hexpects : s.Expects sender
      · have htold := feed_unlock_of_expects sender hf hs hkey hexpects
        refine ⟨htold.1, fun k t => ?_⟩
        rw [htold.2]
        by_cases hk : k = key
        · rw [if_pos hk, hk]
          constructor
          · intro hnone
            cases hnone
          · rintro ⟨ht, hnot⟩
            exact absurd ⟨rfl, hself t ht ▸ hexpects⟩ hnot
        · rw [if_neg hk]
          exact ⟨fun ht => ⟨ht, fun hand => hk hand.1⟩, And.left⟩
      · have htold := feed_unlock_of_not_expects sender hf hs hkey hexpects
        refine ⟨htold.1, fun k t => ?_⟩
        rw [htold.2]
        constructor
        · refine fun ht => ⟨ht, ?_⟩
          rintro ⟨rfl, ht'⟩
          exact hexpects (hself t ht ▸ ht')
        · exact And.left

/-- Of the transfers on the secret, those told are gone that waited for the
    sender, and the channels are as they were. -/
theorem feedAll_unlock (hf : b.Filed) {keys : List TransferKey}
    (hkeys : ∀ key ∈ keys, key.secretHash = hashSecret u.secret) :
    (b.feedAll (.proofReceived ⟨sender, hashSecret u.secret, .unlock u⟩) keys).1.view = b.view ∧
    ∀ k t, (b.feedAll (.proofReceived ⟨sender, hashSecret u.secret, .unlock u⟩)
        keys).1.transfers.get? k = some t ↔
      b.transfers.get? k = some t ∧ ¬ (k ∈ keys ∧ t.Expects sender) := by
  induction keys generalizing b with
  | nil => exact ⟨rfl, fun k t => ⟨fun h => ⟨h, fun hand => nomatch hand.1⟩, And.left⟩⟩
  | cons key rest ih =>
      have hfirst := feed_unlock sender hf (hkeys key List.mem_cons_self)
      -- Whoever is left was there before, so the rest is told of filed transfers.
      have hf' : (b.feed (.proofReceived ⟨sender, hashSecret u.secret, .unlock u⟩) key).1.Filed :=
        fun k t ht => hf k t ((hfirst.2 k t).mp ht).1
      have hrest := ih hf' (fun k hk => hkeys k (List.mem_cons_of_mem key hk))
      rw [feedAll]
      refine ⟨hrest.1.trans hfirst.1, fun k t => ?_⟩
      rw [hrest.2, hfirst.2, List.mem_cons]
      constructor
      · rintro ⟨⟨ht, hne⟩, hnotin⟩
        refine ⟨ht, ?_⟩
        rintro ⟨hk | hk, hexpects⟩
        · exact hne ⟨hk, hexpects⟩
        · exact hnotin ⟨hk, hexpects⟩
      · rintro ⟨ht, hnot⟩
        exact ⟨⟨ht, fun h => hnot ⟨Or.inl h.1, h.2⟩⟩, fun h => hnot ⟨Or.inr h.1, h.2⟩⟩

/-! ### The message -/

/-- Does a channel with the sender take the unlock? -/
def TakesUnlock (b : Broker) (sender : Address) (u : Unlock) : Prop :=
  ∃ c c', b.view.channel? u.balanceProof.channelId = some c ∧ c.partner.address = sender ∧
    c.receiveUnlock u = .ok c'

/-- An unlock is refused and changes nothing, or its channel takes it and those
    transfers on the secret are gone that waited for the sender. -/
theorem receive_unlock (u : Unlock) (hf : b.Filed) :
    (¬ b.TakesUnlock sender u ∧ (b.receive sender (.unlock u)).1 = b) ∨
    (∃ tokenNetwork c c', b.view.find? u.balanceProof.channelId = some (tokenNetwork, c) ∧
      c.partner.address = sender ∧ c.receiveUnlock u = .ok c' ∧
      (b.receive sender (.unlock u)).1.view
        = b.view.putChannel tokenNetwork u.balanceProof.channelId c' ∧
      ∀ k t, (b.receive sender (.unlock u)).1.transfers.get? k = some t ↔
        b.transfers.get? k = some t ∧
          ¬ (k.secretHash = hashSecret u.secret ∧ t.Expects sender)) := by
  rw [receive]
  rcases receiveProof_cases b sender "unlock" u.balanceProof.channelId (hashSecret u.secret)
    (.unlock u) (·.receiveUnlock u) with ⟨heq, hreject⟩ | ⟨tokenNetwork, c, c', hfind, hpartner,
      hop, heq⟩
  · refine Or.inl ⟨?_, heq⟩
    rintro ⟨c, c', hc, hpartner, hop⟩
    exact hreject c c' hc hpartner hop
  · have hf' : Filed
        { b with view := b.view.putChannel tokenNetwork u.balanceProof.channelId c' } := hf
    have hkeys : ∀ key ∈ [Role.mediator, Role.target].map
        (fun role => (⟨role, hashSecret u.secret⟩ : TransferKey)),
        key.secretHash = hashSecret u.secret := by
      intro key hkey
      rcases List.mem_map.mp hkey with ⟨role, -, rfl⟩
      rfl
    have htold := feedAll_unlock sender hf' hkeys
    rw [heq, dispatch]
    refine Or.inr ⟨tokenNetwork, c, c', hfind, hpartner, hop, htold.1, fun k t => ?_⟩
    rw [htold.2]
    refine and_congr_right (fun ht => not_congr (and_congr_left (fun hexpects => ?_)))
    constructor
    · exact hkeys k
    · intro hk
      -- Only mediators and targets wait for an unlock, and both are told.
      have hrole : t.role = k.role := congrArg TransferKey.role (hf k t ht).1
      rcases hexpects with ⟨hawaits, -⟩
      rcases k with ⟨role, secretHash⟩
      dsimp only at hk hrole
      rw [hk, ← hrole]
      cases t with
      | initiator s => cases hawaits
      | mediator s => exact List.mem_cons_self
      | target s => exact List.mem_cons_of_mem _ List.mem_cons_self

variable {sender}

/-- An unlock ends a transfer exactly if a channel takes it, any channel with the
    sender, and the transfer waits for the sender on the hash of the secret. -/
theorem get?_unlock_eq_none_iff (hf : b.Filed) {k : TransferKey} {t : Transfer}
    (ht : b.transfers.get? k = some t) :
    (b.receive sender (.unlock u)).1.transfers.get? k = none ↔
      b.TakesUnlock sender u ∧ k.secretHash = hashSecret u.secret ∧ t.Expects sender := by
  rcases receive_unlock sender u hf with ⟨hnot, heq⟩ | ⟨tokenNetwork, c, c', hfind, hpartner, hop,
    -, htransfers⟩
  · rw [heq, ht]
    constructor
    · intro hnone
      cases hnone
    · intro h
      exact absurd h.1 hnot
  · have htakes : b.TakesUnlock sender u :=
      ⟨c, c', NetworkView.channel?_of_find? hfind, hpartner, hop⟩
    constructor
    · intro hnone
      refine ⟨htakes, ?_⟩
      by_contra hnot
      rw [(htransfers k t).mpr ⟨ht, hnot⟩] at hnone
      cases hnone
    · rintro ⟨-, hended⟩
      -- Whatever is left under the key would be the same transfer.
      rw [Option.eq_none_iff_forall_ne_some]
      intro t' ht'
      have hleft := (htransfers k t').mp ht'
      rw [ht, Option.some.injEq] at hleft
      rw [← hleft.1] at hleft
      exact hleft.2 hended

/-- An unlock that a channel takes turns a pending lock of that channel on the
    secret into a transferred amount. -/
theorem receive_unlock_unlocks (hf : b.Filed)
    (hs : ∀ c, b.view.channel? u.balanceProof.channelId = some c → c.partner.Sound)
    (htakes : b.TakesUnlock sender u) :
    ∃ c l, b.view.channel? u.balanceProof.channelId = some c ∧ c.partner.address = sender ∧
      c.partner.pendingLocks.get? (hashSecret u.secret) = some l ∧
      b.view.Unlocks (b.receive sender (.unlock u)).1.view u.balanceProof.channelId
        (hashSecret u.secret) l.amount := by
  rcases receive_unlock sender u hf with ⟨hnot, -⟩ | ⟨tokenNetwork, c, c', hfind, hpartner, hop,
    hview, -⟩
  · exact absurd htakes hnot
  · have hchannel := NetworkView.channel?_of_find? hfind
    rcases (Channel.receiveUnlock_eq_ok_iff (hs c hchannel)).mp hop with
      ⟨-, -, l, hkey, hrecommits, rfl⟩
    have hl : c.partner.pendingLocks.get? l.secretHash = some l := hrecommits.allowed
    rw [← hkey] at hl
    have hnone : (c.partner.recommit (.claimed l) u.balanceProof).pendingLocks.get?
        (hashSecret u.secret) = none := by
      rw [hkey]
      exact SortedMap.get?_erase_self _ _
    have hchannel' : (b.receive sender (.unlock u)).1.view.channel? u.balanceProof.channelId
        = some { c with partner := c.partner.recommit (.claimed l) u.balanceProof } := by
      rw [hview]
      exact NetworkView.channel?_putChannel_self hfind
    exact ⟨c, l, hchannel, hpartner, hl, c, _, l, hchannel, hchannel', hl, hnone,
      hrecommits.transferred⟩

end Told

end Broker

end PaymentNetwork
