import Mathlib.Data.List.Perm.Basic

/-!
`lru.Cache` from hashicorp/golang-lru, as `simplelru` keeps it: a list of entries, most
recently used first.
-/

namespace Kardia

structure LRU (K V : Type) where
  size : Nat
  entries : List (K × V)
  nodup : (entries.map Prod.fst).Nodup
  bounded : entries.length ≤ size

namespace LRU

variable {K V : Type}

/-- The constructor `lru.New(size)`. -/
def new (size : Nat) : LRU K V := ⟨size, [], List.nodup_nil, Nat.zero_le _⟩

/-- The method `Purge`. -/
def purge (c : LRU K V) : LRU K V := ⟨c.size, [], List.nodup_nil, Nat.zero_le _⟩

def All (P : K → V → Prop) (c : LRU K V) : Prop := ∀ e ∈ c.entries, P e.1 e.2

theorem all_new (P : K → V → Prop) (size : Nat) : (new size : LRU K V).All P := by
  simp [All, new]

theorem all_purge (P : K → V → Prop) (c : LRU K V) : c.purge.All P := by
  simp [All, purge]

variable [DecidableEq K]

section Entries

variable {l : List (K × V)} {k : K}

theorem mem_keys_of_find? {e : K × V} (h : l.find? (fun e => e.1 == k) = some e) :
    k ∈ l.map Prod.fst := by
  have hk : e.1 = k := by simpa using List.find?_some h
  exact List.mem_map.2 ⟨e, List.mem_of_find?_eq_some h, hk⟩

theorem not_mem_keys_of_find? (h : l.find? (fun e => e.1 == k) = none) : k ∉ l.map Prod.fst := by
  intro hk
  obtain ⟨e, he, rfl⟩ := List.mem_map.1 hk
  exact List.find?_eq_none.1 h e he (by simp)

theorem nodup_moveToFront (hl : (l.map Prod.fst).Nodup) (hk : k ∈ l.map Prod.fst) (v : V) :
    (((k, v) :: l.eraseP (fun e => e.1 == k)).map Prod.fst).Nodup := by
  have hp : (k :: (l.map Prod.fst).erase k).Perm (l.map Prod.fst) := (List.perm_cons_erase hk).symm
  rw [List.erase_eq_eraseP', List.eraseP_map] at hp
  exact hp.nodup_iff.2 hl

theorem length_moveToFront (hk : k ∈ l.map Prod.fst) (v : V) :
    ((k, v) :: l.eraseP (fun e => e.1 == k)).length = l.length := by
  obtain ⟨e, he, rfl⟩ := List.mem_map.1 hk
  rw [List.length_cons, List.length_eraseP_of_mem he (by simp)]
  have := List.length_pos_of_mem he
  omega

end Entries

def moveToFront (c : LRU K V) (k : K) (v : V) (hk : k ∈ c.entries.map Prod.fst) : LRU K V :=
  ⟨c.size, (k, v) :: c.entries.eraseP (fun e => e.1 == k), nodup_moveToFront c.nodup hk v,
    (length_moveToFront hk v).trans_le c.bounded⟩

/-- The method `Get`: a hit is moved to the front. -/
def get (c : LRU K V) (k : K) : Option V × LRU K V :=
  match h : c.entries.find? (fun e => e.1 == k) with
  | some e => (some e.2, c.moveToFront k e.2 (mem_keys_of_find? h))
  | none => (none, c)

/-- The method `Add`: a present key moves to the front with its new value; a new key goes in front
and pushes out the least recently used entry when the cache is over its size. -/
def add (c : LRU K V) (k : K) (v : V) : LRU K V :=
  match h : c.entries.find? (fun e => e.1 == k) with
  | some _ => c.moveToFront k v (mem_keys_of_find? h)
  | none =>
    if hs : c.entries.length < c.size then
      ⟨c.size, (k, v) :: c.entries, List.nodup_cons.2 ⟨not_mem_keys_of_find? h, c.nodup⟩,
        Nat.succ_le_of_lt hs⟩
    else
      ⟨c.size, ((k, v) :: c.entries).dropLast,
        (List.nodup_cons.2 ⟨not_mem_keys_of_find? h, c.nodup⟩).sublist
          ((List.dropLast_sublist _).map _),
        by rw [List.length_dropLast, List.length_cons, Nat.add_sub_cancel]; exact c.bounded⟩

theorem mem_of_get {c : LRU K V} {k : K} {v : V} (h : (c.get k).1 = some v) :
    (k, v) ∈ c.entries := by
  unfold get at h
  split at h
  · rename_i e he
    obtain rfl : e.2 = v := by simpa using h
    have hk : e.1 = k := by simpa using List.find?_some he
    exact hk ▸ List.mem_of_find?_eq_some he
  · cases h

theorem get_of_entries_nil {c : LRU K V} (h : c.entries = []) (k : K) : c.get k = (none, c) := by
  unfold get
  split
  · rename_i e he
    simp [h] at he
  · rfl

theorem All.moveToFront {P : K → V → Prop} {c : LRU K V} (h : c.All P) {k : K} {v : V}
    (hk : k ∈ c.entries.map Prod.fst) (hkv : P k v) : (c.moveToFront k v hk).All P := by
  intro x hx
  rcases List.mem_cons.1 hx with rfl | hx
  · exact hkv
  · exact h x (List.mem_of_mem_eraseP hx)

theorem All.get {P : K → V → Prop} {c : LRU K V} (h : c.All P) (k : K) : (c.get k).2.All P := by
  unfold LRU.get
  split
  · rename_i e he
    have hk : e.1 = k := by simpa using List.find?_some he
    exact h.moveToFront (mem_keys_of_find? he) (hk ▸ h e (List.mem_of_find?_eq_some he))
  · exact h

theorem All.add {P : K → V → Prop} {c : LRU K V} (h : c.All P) {k : K} {v : V} (hkv : P k v) :
    (c.add k v).All P := by
  unfold LRU.add
  split
  · exact h.moveToFront _ hkv
  · split <;> intro x hx
    · rcases List.mem_cons.1 hx with rfl | hx
      · exact hkv
      · exact h x hx
    · rcases List.mem_cons.1 (List.dropLast_subset _ hx) with rfl | hx
      · exact hkv
      · exact h x hx

end LRU

end Kardia
