import Mathlib.Data.List.Nodup
import Mathlib.Data.List.Count

/-!
# Finite maps whose entries sit in numbered slots

A `SlotMap κ δ` is a finite map from keys to payloads in which every live key
also occupies a *slot*, a number that no other live key has.  Slots are handed
out by an allocator this file knows nothing about: `add` is told which slot the
allocator picked, and an allocator that has none left, or that offers an
occupied one, makes the addition fail.  Nothing relates a key's slot to its
payload.

The two uniqueness properties are fields of the structure, so that lookups by
key and by slot are functions of the entries, whatever their order.
-/

namespace DpdkSpi.Lib

universe u v

/-- A live entry of a slot map. -/
structure SlotEntry (κ : Type u) (δ : Type v) where
  /-- The key. -/
  key : κ
  /-- The slot the key occupies. -/
  pos : Nat
  /-- The payload stored under the key. -/
  data : δ
deriving DecidableEq, Repr

/-- A finite map whose live keys occupy pairwise distinct slots. -/
structure SlotMap (κ : Type u) (δ : Type v) where
  /-- The live entries, in no particular order. -/
  entries : List (SlotEntry κ δ)
  /-- A key is live at most once. -/
  keys_nodup : (entries.map SlotEntry.key).Nodup
  /-- A slot is occupied at most once. -/
  slots_nodup : (entries.map SlotEntry.pos).Nodup

namespace SlotMap

variable {κ : Type u} {δ : Type v}

/-- The map with no live key. -/
def empty : SlotMap κ δ := ⟨[], List.nodup_nil, List.nodup_nil⟩

@[simp] theorem entries_empty : (empty : SlotMap κ δ).entries = [] := rfl

@[ext] theorem ext {m n : SlotMap κ δ} (h : m.entries = n.entries) : m = n := by
  cases m; cases n; simpa using h

/-- Two entries of a map with the same key are the same entry. -/
theorem eq_of_key_eq (m : SlotMap κ δ) {e e' : SlotEntry κ δ} (he : e ∈ m.entries)
    (he' : e' ∈ m.entries) (h : e.key = e'.key) : e = e' :=
  List.inj_on_of_nodup_map m.keys_nodup he he' h

/-- Two entries of a map in the same slot are the same entry. -/
theorem eq_of_pos_eq (m : SlotMap κ δ) {e e' : SlotEntry κ δ} (he : e ∈ m.entries)
    (he' : e' ∈ m.entries) (h : e.pos = e'.pos) : e = e' :=
  List.inj_on_of_nodup_map m.slots_nodup he he' h

/-- Whether some live key occupies the slot. -/
def occupied (m : SlotMap κ δ) (p : Nat) : Bool := m.entries.any fun e ↦ e.pos == p

theorem occupied_iff {m : SlotMap κ δ} {p : Nat} :
    m.occupied p = true ↔ ∃ e ∈ m.entries, e.pos = p := by
  simp [occupied]

/-! ## Lookup by key and by slot -/

/-- The payload stored under a key. -/
def lookup [DecidableEq κ] (m : SlotMap κ δ) (k : κ) : Option δ :=
  (m.entries.find? fun e ↦ e.key = k).map SlotEntry.data

/-- The key that occupies a slot. -/
def keyAt (m : SlotMap κ δ) (p : Nat) : Option κ :=
  (m.entries.find? fun e ↦ e.pos = p).map SlotEntry.key

/-- In a list on which `f` is injective, looking for an element's image finds it. -/
private theorem find?_of_mem {α β : Type*} [DecidableEq β] {f : α → β} {l : List α}
    (hl : (l.map f).Nodup) {a : α} (ha : a ∈ l) : l.find? (fun x ↦ f x = f a) = some a := by
  cases h : l.find? (fun x ↦ decide (f x = f a)) with
  | none => simpa using List.find?_eq_none.mp h a ha
  | some b =>
      have hf : f b = f a := by simpa using List.find?_some h
      rw [List.inj_on_of_nodup_map hl (List.mem_of_find?_eq_some h) ha hf]

theorem lookup_of_mem [DecidableEq κ] (m : SlotMap κ δ) {e : SlotEntry κ δ}
    (he : e ∈ m.entries) : m.lookup e.key = some e.data := by
  rw [lookup, find?_of_mem m.keys_nodup he, Option.map_some]

theorem lookup_eq_some_iff [DecidableEq κ] {m : SlotMap κ δ} {k : κ} {d : δ} :
    m.lookup k = some d ↔ ∃ e ∈ m.entries, e.key = k ∧ e.data = d := by
  constructor
  · intro h
    obtain ⟨e, he, hd⟩ := Option.map_eq_some_iff.mp h
    exact ⟨e, List.mem_of_find?_eq_some he, by simpa using List.find?_some he, hd⟩
  · rintro ⟨e, he, rfl, rfl⟩
    exact m.lookup_of_mem he

theorem lookup_eq_none_iff [DecidableEq κ] {m : SlotMap κ δ} {k : κ} :
    m.lookup k = none ↔ ∀ e ∈ m.entries, e.key ≠ k := by
  simp [lookup]

theorem keyAt_of_mem (m : SlotMap κ δ) {e : SlotEntry κ δ} (he : e ∈ m.entries) :
    m.keyAt e.pos = some e.key := by
  rw [keyAt, find?_of_mem m.slots_nodup he, Option.map_some]

theorem keyAt_eq_some_iff {m : SlotMap κ δ} {p : Nat} {k : κ} :
    m.keyAt p = some k ↔ ∃ e ∈ m.entries, e.pos = p ∧ e.key = k := by
  constructor
  · intro h
    obtain ⟨e, he, hk⟩ := Option.map_eq_some_iff.mp h
    exact ⟨e, List.mem_of_find?_eq_some he, by simpa using List.find?_some he, hk⟩
  · rintro ⟨e, he, rfl, rfl⟩
    exact m.keyAt_of_mem he

theorem keyAt_eq_none_iff {m : SlotMap κ δ} {p : Nat} :
    m.keyAt p = none ↔ m.occupied p = false := by
  simp [keyAt, occupied]

/-! ## Removing entries -/

/-- The map with only the entries that satisfy `f`. -/
def filter (m : SlotMap κ δ) (f : SlotEntry κ δ → Bool) : SlotMap κ δ where
  entries := m.entries.filter f
  keys_nodup := m.keys_nodup.sublist (List.filter_sublist.map _)
  slots_nodup := m.slots_nodup.sublist (List.filter_sublist.map _)

@[simp] theorem entries_filter (m : SlotMap κ δ) (f : SlotEntry κ δ → Bool) :
    (m.filter f).entries = m.entries.filter f := rfl

theorem filter_filter (m : SlotMap κ δ) (f g : SlotEntry κ δ → Bool) :
    (m.filter f).filter g = m.filter fun e ↦ g e && f e := by
  ext1
  simp [List.filter_filter, Bool.and_comm]

/-- The map without a key. -/
def erase [DecidableEq κ] (m : SlotMap κ δ) (k : κ) : SlotMap κ δ :=
  m.filter fun e ↦ !decide (e.key = k)

/-- Erasing the key found in a slot empties exactly that slot. -/
theorem erase_keyAt [DecidableEq κ] {m : SlotMap κ δ} {p : Nat} {k : κ}
    (h : m.keyAt p = some k) : m.erase k = m.filter fun e ↦ !decide (e.pos = p) := by
  obtain ⟨e, he, rfl, rfl⟩ := keyAt_eq_some_iff.mp h
  ext1
  refine List.filter_congr fun e' he' ↦ ?_
  have hiff : e'.key = e.key ↔ e'.pos = e.pos :=
    ⟨fun hk ↦ congrArg _ (m.eq_of_key_eq he' he hk),
      fun hp ↦ congrArg _ (m.eq_of_pos_eq he' he hp)⟩
  simp [hiff]

/-! ## Adding entries -/

/-- The map with one more key, in a slot nobody occupies. -/
def cons (m : SlotMap κ δ) (k : κ) (p : Nat) (d : δ) (hk : ∀ e ∈ m.entries, e.key ≠ k)
    (hp : m.occupied p = false) : SlotMap κ δ where
  entries := ⟨k, p, d⟩ :: m.entries
  keys_nodup := by
    rw [List.map_cons, List.nodup_cons]
    refine ⟨fun hmem ↦ ?_, m.keys_nodup⟩
    obtain ⟨e, he, rfl⟩ := List.mem_map.mp hmem
    exact hk e he rfl
  slots_nodup := by
    rw [List.map_cons, List.nodup_cons]
    refine ⟨fun hmem ↦ ?_, m.slots_nodup⟩
    rw [occupied_iff.mpr (List.mem_map.mp hmem)] at hp
    exact Bool.noConfusion hp

/-- Replacing payloads changes no projection that ignores them. -/
private theorem map_replace {β : Type*} [DecidableEq κ] (l : List (SlotEntry κ δ)) (k : κ)
    (d : δ) (f : SlotEntry κ δ → β) (hf : ∀ e : SlotEntry κ δ, f { e with data := d } = f e) :
    (l.map fun e ↦ if e.key = k then { e with data := d } else e).map f = l.map f := by
  rw [List.map_map]
  refine List.map_congr_left fun e _ ↦ ?_
  by_cases h : e.key = k
  · simp only [Function.comp_apply, if_pos h, hf]
  · simp only [Function.comp_apply, if_neg h]

/-- The map with the payload of one key replaced. -/
def replace [DecidableEq κ] (m : SlotMap κ δ) (k : κ) (d : δ) : SlotMap κ δ where
  entries := m.entries.map fun e ↦ if e.key = k then { e with data := d } else e
  keys_nodup := by
    rw [map_replace _ _ _ _ fun _ ↦ rfl]
    exact m.keys_nodup
  slots_nodup := by
    rw [map_replace _ _ _ _ fun _ ↦ rfl]
    exact m.slots_nodup

/-- Store a payload under a key.  A live key keeps its slot and has its payload
replaced; a new key takes the slot the allocator picked, and the addition fails
when the allocator has no slot to give or gives an occupied one. -/
def add [DecidableEq κ] (m : SlotMap κ δ) (k : κ) (slot : Option Nat) (d : δ) :
    Option (SlotMap κ δ) :=
  if hk : ∀ e ∈ m.entries, e.key ≠ k then
    slot.bind fun p ↦
      if hp : m.occupied p = false then some (m.cons k p d hk hp) else none
  else some (m.replace k d)

/-- Adding a new key fails, or takes a free slot the allocator picked. -/
theorem add_of_lookup_eq_none [DecidableEq κ] {m : SlotMap κ δ} {k : κ} (hk : m.lookup k = none)
    (slot : Option Nat) (d : δ) :
    (m.add k slot d = none ∧ ∀ p, slot = some p → m.occupied p = true) ∨
      ∃ p m', slot = some p ∧ m.occupied p = false ∧ m.add k slot d = some m' ∧
        m'.entries = ⟨k, p, d⟩ :: m.entries := by
  have hk' := lookup_eq_none_iff.mp hk
  cases slot with
  | none => exact .inl ⟨by simp [add, dif_pos hk'], by simp⟩
  | some p =>
      cases hp : m.occupied p with
      | true => exact .inl ⟨by simp [add, dif_pos hk', hp], by simpa using hp⟩
      | false =>
          exact .inr ⟨p, m.cons k p d hk' hp, rfl, hp, by simp [add, dif_pos hk', hp], rfl⟩

/-- Whatever becomes of an addition, there is no key but its own and those that were there. -/
theorem key_of_mem_add [DecidableEq κ] {m m' : SlotMap κ δ} {k : κ} {slot : Option Nat} {d : δ}
    (h : m.add k slot d = some m') {e : SlotEntry κ δ} (he : e ∈ m'.entries) :
    e.key = k ∨ ∃ e' ∈ m.entries, e'.key = e.key := by
  unfold add at h
  split at h
  · obtain ⟨p, -, hp⟩ := Option.bind_eq_some_iff.mp h
    split at hp
    · cases hp
      rcases List.mem_cons.mp he with rfl | he
      · exact .inl rfl
      · exact .inr ⟨e, he, rfl⟩
    · cases hp
  · cases h
    obtain ⟨e', he', rfl⟩ := List.mem_map.mp he
    refine .inr ⟨e', he', ?_⟩
    split <;> rfl

end SlotMap

end DpdkSpi.Lib
