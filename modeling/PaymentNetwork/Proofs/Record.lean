import Mathlib.Data.List.Nodup
import PaymentNetwork.Proofs.Bytes
import PaymentNetwork.Proofs.SortedMap
import PaymentNetwork.Record.Channel
import PaymentNetwork.Record.Transfer

/-!
# Records Read Back

What is written of the records of a node, and what is read of it.

Every type is written by one list of fields and read by another one, and nothing makes the
two agree. If a name is spelled in two ways, or a variant is read as its neighbour, then some
value does not come back. So each type has a proof of its own, and each is short, because the
types that a record is made of were dealt with before.

Two things could go wrong where types are put together. A variant without data is written as
its name alone, and null counts as no data, so the data of a variant must not be null. And an
option that is absent is written as null, so what is present must not be. Options are the
only ones that are written as null, and no option is in an option or in a variant. Types of
which this is known are solid.

Written values are proper: their numbers are whole and no record has a name twice. A map has
the texts of its keys as names, and these differ because each text reads back.

## Main definitions

* `Value.Proper`: A value that has whole numbers and no name twice.
* `LawfulCodec`, `SolidCodec`: What is written reads back, and is not null.
* `RoundTrip`: What writing a type and reading it have to do with each other.
* `RecordLaw`: This for all records.

## Theorems

* `SolidCodec.of_record`, `SolidCodec.of_name`, `SolidCodec.of_variant`: The three ways in
  which a type is written.
* `roundTrip`: What follows if a type reads back.
* `recordLaw`: The law.
-/

namespace PaymentNetwork

namespace Value

/-- A value that has whole numbers, none of them negative, and no name twice in a record. -/
inductive Proper : Value → Prop where
  | null : Proper null
  | bool (b : Bool) : Proper (bool b)
  | number (n : Nat) : Proper (number n 0)
  | text (s : String) : Proper (text s)
  | list {items : List Value} (items_proper : ∀ v ∈ items, Proper v) : Proper (list items)
  | record {fields : List (String × Value)} (nodup_names : (fields.map Prod.fst).Nodup)
      (fields_proper : ∀ f ∈ fields, Proper f.2) : Proper (record fields)

@[simp] theorem proper_record_iff {fields : List (String × Value)} :
    (record fields).Proper ↔ (fields.map Prod.fst).Nodup ∧ ∀ f ∈ fields, f.2.Proper := by
  constructor
  · intro h
    cases h with
    | record nodup_names fields_proper => exact ⟨nodup_names, fields_proper⟩
  · rintro ⟨nodup_names, fields_proper⟩
    exact .record nodup_names fields_proper

@[simp] theorem proper_variant_iff {name : String} {data : Value} :
    (variant name data).Proper ↔ data.Proper := by
  simp [variant]

end Value

/-! ### Types that read back -/

/-- What is written is proper and reads back. -/
class LawfulCodec (α : Type) [Codec α] : Prop where
  decode_encode : ∀ a : α, decode (encode a) = some a
  proper_encode : ∀ a : α, (encode a).Proper

/-- What is written is not null either. -/
class SolidCodec (α : Type) [Codec α] : Prop extends LawfulCodec α where
  encode_ne_null : ∀ a : α, encode a ≠ .null

export LawfulCodec (decode_encode proper_encode)

export SolidCodec (encode_ne_null)

attribute [simp] LawfulCodec.decode_encode LawfulCodec.proper_encode

namespace Value

section Field

variable {α : Type} [Codec α]

/-- A field that was written is read. -/
@[simp] theorem field_cons_self [LawfulCodec α] (name : String) (a : α)
    (rest : List (String × Value)) : (record ((name, encode a) :: rest)).field name = some a := by
  rw [field, get, List.lookup_cons_self, Option.getD_some, decode_encode]

/-- Fields of other names are passed over. -/
@[simp] theorem field_cons_of_ne {name other : String} (h : name ≠ other) (data : Value)
    (rest : List (String × Value)) :
    (record ((other, data) :: rest)).field (α := α) name = (record rest).field name := by
  rw [field, field, get, get, List.lookup_cons, beq_eq_false_iff_ne.mpr h]

end Field

@[simp] theorem variant?_record (name : String) (fields : List (String × Value)) :
    (variant name (record fields)).variant? = some (name, some (record fields)) := rfl

end Value

namespace SolidCodec

variable {α : Type} [Codec α]

/-- A type that is written as records. -/
theorem of_record (h : ∀ a : α, ∃ fields, encode a = .record fields ∧
    decode (.record fields) = some a ∧ (Value.record fields).Proper) : SolidCodec α where
  decode_encode a := by
    obtain ⟨fields, hencode, hdecode, -⟩ := h a
    rw [hencode, hdecode]
  proper_encode a := by
    obtain ⟨fields, hencode, -, hproper⟩ := h a
    rw [hencode]
    exact hproper
  encode_ne_null a := by
    obtain ⟨fields, hencode, -⟩ := h a
    rw [hencode]
    exact Value.noConfusion

/-- A type whose variants have no data. -/
theorem of_name (h : ∀ a : α, ∃ name, encode a = .text name ∧ decode (.text name) = some a) :
    SolidCodec α where
  decode_encode a := by
    obtain ⟨name, hencode, hdecode⟩ := h a
    rw [hencode, hdecode]
  proper_encode a := by
    obtain ⟨name, hencode, -⟩ := h a
    rw [hencode]
    exact .text name
  encode_ne_null a := by
    obtain ⟨name, hencode, -⟩ := h a
    rw [hencode]
    exact Value.noConfusion

/-- A type whose variants have data. -/
theorem of_variant (h : ∀ a : α, ∃ name data, encode a = .variant name data ∧
    decode (.variant name data) = some a ∧ data.Proper) : SolidCodec α :=
  of_record fun a => by
    obtain ⟨name, data, hencode, hdecode, hproper⟩ := h a
    exact ⟨[(name, data)], hencode, hdecode, Value.proper_variant_iff.mpr hproper⟩

/-- A variant whose data is a value that reads back. -/
theorem exists_variant {β : Type} [Codec β] [LawfulCodec β] (wrap : β → α) (x : β)
    {name : String} (hencode : encode (wrap x) = .variant name (encode x))
    (hdecode : decode (.variant name (encode x)) = (decode (encode x)).map wrap) :
    ∃ name data, encode (wrap x) = .variant name data ∧
      decode (.variant name data) = some (wrap x) ∧ data.Proper := by
  rw [decode_encode, Option.map_some] at hdecode
  exact ⟨name, encode x, hencode, hdecode, proper_encode x⟩

end SolidCodec

/-! ### Numbers, texts and collections -/

instance {bits : Nat} : SolidCodec (Word bits) where
  decode_encode w := by simp [encode, decode]
  proper_encode w := .number w.val
  encode_ne_null w := Value.noConfusion

instance {n : Nat} : SolidCodec (FixedBytes n) where
  decode_encode b := by simp [encode, decode, FixedBytes.parse_toText, Except.toOption]
  proper_encode b := .text b.toText
  encode_ne_null b := Value.noConfusion

instance : SolidCodec Bool where
  decode_encode _ := rfl
  proper_encode := .bool
  encode_ne_null _ := Value.noConfusion

instance : SolidCodec String where
  decode_encode _ := rfl
  proper_encode := .text
  encode_ne_null _ := Value.noConfusion

section Collections

variable {α : Type} [Codec α]

theorem mapM_map_eq_some {β γ : Type} {f : γ → β} {g : β → Option γ}
    (h : ∀ c, g (f c) = some c) (l : List γ) : (l.map f).mapM g = some l := by
  have hpure : g ∘ f = fun c => pure (id c) := funext h
  rw [List.mapM_map, hpure, List.mapM_pure, List.map_id]
  rfl

instance [SolidCodec α] : LawfulCodec (Option α) where
  decode_encode a := by
    cases a with
    | none => rfl
    | some a =>
        -- What is present is not null, so it is not taken for what is absent.
        have hsolid : encode a ≠ .null := encode_ne_null a
        change (match encode a with
          | .null => some none
          | v => (decode v).map some) = some (some a)
        split
        · exact absurd ‹_› hsolid
        · rw [decode_encode, Option.map_some]
  proper_encode a := by
    cases a with
    | none => exact .null
    | some a => exact proper_encode a

instance [LawfulCodec α] : SolidCodec (List α) where
  decode_encode l := mapM_map_eq_some decode_encode l
  proper_encode l := by
    refine .list fun v hv => ?_
    obtain ⟨a, -, rfl⟩ := List.mem_map.mp hv
    exact proper_encode a
  encode_ne_null _ := Value.noConfusion

theorem FixedBytes.toText_injective {n : Nat} :
    Function.Injective (FixedBytes.toText : FixedBytes n → String) := by
  intro a b h
  have hparse := FixedBytes.parse_toText a
  rw [h, FixedBytes.parse_toText b] at hparse
  exact (Except.ok.inj hparse).symm

instance {n : Nat} [LawfulCodec α] : SolidCodec (SortedMap (FixedBytes n) α) :=
  .of_record fun m => by
    refine ⟨_, rfl, ?_, ?_⟩
    · have hentry : ∀ e : FixedBytes n × α, decodeEntry (e.1.toText, encode e.2) = some e := by
        intro e
        simp [decodeEntry, FixedBytes.parse_toText, Except.toOption]
      change ((m.entries.map fun e => (e.1.toText, encode e.2)).mapM decodeEntry).map
        SortedMap.ofList = some m
      rw [mapM_map_eq_some hentry, Option.map_some, SortedMap.ofList_entries]
    · refine Value.proper_record_iff.mpr ⟨?_, fun f hf => ?_⟩
      · -- Different keys have different texts.
        have hnames := List.Nodup.map FixedBytes.toText_injective m.nodup_keys
        rw [SortedMap.keys, List.map_map] at hnames
        rw [List.map_map]
        exact hnames
      · obtain ⟨e, -, rfl⟩ := List.mem_map.mp hf
        exact proper_encode e.2

end Collections

/-! ### Messages and routes -/

instance : SolidCodec Lock := .of_record fun x => ⟨_, rfl, by simp [decode], by simp⟩

instance : SolidCodec BalanceProof := .of_record fun x => ⟨_, rfl, by simp [decode], by simp⟩

instance : SolidCodec LockedTransfer := .of_record fun x => ⟨_, rfl, by simp [decode], by simp⟩

instance : SolidCodec SecretRequest := .of_record fun x => ⟨_, rfl, by simp [decode], by simp⟩

instance : SolidCodec SecretReveal := .of_record fun x => ⟨_, rfl, by simp [decode], by simp⟩

instance : SolidCodec Unlock := .of_record fun x => ⟨_, rfl, by simp [decode], by simp⟩

instance : SolidCodec LockRemoval := .of_record fun x => ⟨_, rfl, by simp [decode], by simp⟩

instance : SolidCodec Disposal := .of_record fun x => ⟨_, rfl, by simp [decode], by simp⟩

instance : SolidCodec Message := .of_variant fun m => by
  cases m with
  | lockedTransfer x => exact SolidCodec.exists_variant Message.lockedTransfer x rfl rfl
  | secretRequest x => exact SolidCodec.exists_variant Message.secretRequest x rfl rfl
  | secretReveal x => exact SolidCodec.exists_variant Message.secretReveal x rfl rfl
  | unlock x => exact SolidCodec.exists_variant Message.unlock x rfl rfl
  | lockRemoval x => exact SolidCodec.exists_variant Message.lockRemoval x rfl rfl
  | disposal x => exact SolidCodec.exists_variant Message.disposal x rfl rfl

instance : SolidCodec TransferTerms := .of_record fun x => ⟨_, rfl, by simp [decode], by simp⟩

instance : SolidCodec Route := .of_record fun x => ⟨_, rfl, by simp [decode], by simp⟩

instance : SolidCodec Routes := .of_record fun x => ⟨_, rfl, by simp [decode], by simp⟩

/-! ### The ledger and the channels -/

instance : SolidCodec ChainEvent := .of_variant fun e => by
  cases e with
  | _ => exact ⟨_, _, rfl, by simp [decode], by simp⟩

instance : SolidCodec ChainCall := .of_variant fun call => by
  cases call with
  | _ => exact ⟨_, _, rfl, by simp [decode], by simp⟩

instance : SolidCodec ChannelStatus where
  decode_encode s := by
    cases s with
    | opened => rfl
    | closed block =>
        change decode (Value.variant "Closed" (.record [("block_number", encode block)])) = _
        simp [decode]
    | settled block =>
        change decode (Value.variant "Settled" (.record [("block_number", encode block)])) = _
        simp [decode]
  proper_encode s := by
    cases s with
    | opened => exact .text _
    | closed block => exact Value.proper_variant_iff.mpr (by simp)
    | settled block => exact Value.proper_variant_iff.mpr (by simp)
  encode_ne_null s := by
    cases s with
    | _ => exact Value.noConfusion

instance : SolidCodec ChannelEnd := .of_record fun x => ⟨_, rfl, by simp [decode], by simp⟩

instance : SolidCodec Channel := .of_record fun x => ⟨_, rfl, by simp [decode], by simp⟩

/-! ### Reports -/

instance : SolidCodec TransferStatus := .of_name fun s => by
  cases s with
  | _ => exact ⟨_, rfl, rfl⟩

instance : SolidCodec NoticeLevel := .of_name fun level => by
  cases level with
  | _ => exact ⟨_, rfl, rfl⟩

instance : SolidCodec SentTransfer := .of_record fun x => ⟨_, rfl, by simp [decode], by simp⟩

instance : SolidCodec ReceivedTransfer := .of_record fun x => ⟨_, rfl, by simp [decode], by simp⟩

instance : SolidCodec Notice := .of_record fun x => ⟨_, rfl, by simp [decode], by simp⟩

/-! ### Transfers -/

instance : SolidCodec StartInitiator := .of_record fun x => ⟨_, rfl, by simp [decode], by simp⟩

instance : SolidCodec StartMediator := .of_record fun x => ⟨_, rfl, by simp [decode], by simp⟩

instance : SolidCodec StartTarget := .of_record fun x => ⟨_, rfl, by simp [decode], by simp⟩

instance : SolidCodec RouteRefusal := .of_record fun x => ⟨_, rfl, by simp [decode], by simp⟩

instance : SolidCodec SecretRequested := .of_record fun x => ⟨_, rfl, by simp [decode], by simp⟩

instance : SolidCodec SecretRevealed := .of_record fun x => ⟨_, rfl, by simp [decode], by simp⟩

instance : SolidCodec LockDisposed := .of_record fun x => ⟨_, rfl, by simp [decode], by simp⟩

instance : SolidCodec ProofMessage := .of_variant fun m => by
  cases m with
  | unlock x => exact SolidCodec.exists_variant ProofMessage.unlock x rfl rfl
  | removal x => exact SolidCodec.exists_variant ProofMessage.removal x rfl rfl

instance : SolidCodec ProofReceived := .of_record fun x => ⟨_, rfl, by simp [decode], by simp⟩

instance : SolidCodec Input := .of_variant fun i => by
  cases i with
  | block number => exact ⟨_, _, rfl, by simp [decode], by simp⟩
  | startInitiator x => exact SolidCodec.exists_variant Input.startInitiator x rfl rfl
  | startMediator x => exact SolidCodec.exists_variant Input.startMediator x rfl rfl
  | startTarget x => exact SolidCodec.exists_variant Input.startTarget x rfl rfl
  | routeRefused x => exact SolidCodec.exists_variant Input.routeRefused x rfl rfl
  | secretRequested x => exact SolidCodec.exists_variant Input.secretRequested x rfl rfl
  | secretRevealed x => exact SolidCodec.exists_variant Input.secretRevealed x rfl rfl
  | lockDisposed x => exact SolidCodec.exists_variant Input.lockDisposed x rfl rfl
  | proofReceived x => exact SolidCodec.exists_variant Input.proofReceived x rfl rfl
  | chain x =>
      refine SolidCodec.exists_variant Input.chain x rfl ?_
      -- Which data is written shows when the variant is known.
      cases x with
      | _ => rfl

instance : SolidCodec Effect := .of_variant fun e => by
  cases e with
  | call x =>
      refine SolidCodec.exists_variant Effect.call x rfl ?_
      cases x with
      | _ => rfl
  | _ => exact ⟨_, _, rfl, by simp [decode], by simp⟩

instance : SolidCodec InitiatorStatus := .of_name fun s => by
  cases s with
  | _ => exact ⟨_, rfl, rfl⟩

instance : SolidCodec MediatorStatus := .of_name fun s => by
  cases s with
  | _ => exact ⟨_, rfl, rfl⟩

instance : SolidCodec TargetStatus := .of_name fun s => by
  cases s with
  | _ => exact ⟨_, rfl, rfl⟩

instance : SolidCodec Initiator := .of_record fun x => ⟨_, rfl, by simp [decode], by simp⟩

instance : SolidCodec Mediator := .of_record fun x => ⟨_, rfl, by simp [decode], by simp⟩

instance : SolidCodec Target := .of_record fun x => ⟨_, rfl, by simp [decode], by simp⟩

instance : SolidCodec Transfer := .of_variant fun t => by
  cases t with
  | initiator x => exact SolidCodec.exists_variant Transfer.initiator x rfl rfl
  | mediator x => exact SolidCodec.exists_variant Transfer.mediator x rfl rfl
  | target x => exact SolidCodec.exists_variant Transfer.target x rfl rfl

/-! ### The law -/

/-- Read a value as one of a type, and write it again. -/
def Value.rewrite? (α : Type) [Codec α] (v : Value) : Option Value :=
  (decode v : Option α).map encode

/-- What writing a type and reading it have to do with each other. -/
structure RoundTrip (α : Type) [Codec α] : Prop where
  /-- What is written reads back. -/
  reads : ∀ a : α, decode (encode a) = some a
  /-- Nothing else is written in the same way. -/
  injective : Function.Injective (encode : α → Value)
  /-- What was read and written again is read as the same, and stays as it is from then on. -/
  idempotent : ∀ v w : Value, v.rewrite? α = some w →
    (decode w : Option α) = decode v ∧ w.rewrite? α = some w
  /-- What is written has whole numbers and no name twice. -/
  proper : ∀ a : α, (encode a).Proper

theorem roundTrip (α : Type) [Codec α] [LawfulCodec α] : RoundTrip α where
  reads := decode_encode
  injective a b h := by
    have hread := decode_encode a
    rw [h, decode_encode b] at hread
    exact (Option.some.inj hread).symm
  idempotent v w h := by
    obtain ⟨a, ha, rfl⟩ := Option.map_eq_some_iff.mp h
    refine ⟨(decode_encode a).trans ha.symm, ?_⟩
    rw [Value.rewrite?, decode_encode, Option.map_some]
  proper := proper_encode

/-- All records of a node read back. -/
structure RecordLaw : Prop where
  lock : RoundTrip Lock
  balanceProof : RoundTrip BalanceProof
  terms : RoundTrip TransferTerms
  message : RoundTrip Message
  chainEvent : RoundTrip ChainEvent
  input : RoundTrip Input
  effect : RoundTrip Effect
  route : RoundTrip Route
  routes : RoundTrip Routes
  channel : RoundTrip Channel
  transfer : RoundTrip Transfer
  sent : RoundTrip SentTransfer
  received : RoundTrip ReceivedTransfer
  notice : RoundTrip Notice

/-- The law holds for every value of every record. -/
theorem recordLaw : RecordLaw where
  lock := roundTrip Lock
  balanceProof := roundTrip BalanceProof
  terms := roundTrip TransferTerms
  message := roundTrip Message
  chainEvent := roundTrip ChainEvent
  input := roundTrip Input
  effect := roundTrip Effect
  route := roundTrip Route
  routes := roundTrip Routes
  channel := roundTrip Channel
  transfer := roundTrip Transfer
  sent := roundTrip SentTransfer
  received := roundTrip ReceivedTransfer
  notice := roundTrip Notice

end PaymentNetwork
