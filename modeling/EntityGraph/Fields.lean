/-!
Ordered fields: a list of pairs of a key and a value, read as a map that remembers the order in
which its keys were first written. Writing a key again keeps its place and replaces its value.
-/

namespace EntityGraph

/-- Pairs of a key and a value, in order. -/
abbrev Fields (α : Type) := List (String × α)

namespace Fields

variable {α β : Type}

/-- The keys, in order. -/
def keys (fs : Fields α) : List String := fs.map Prod.fst

/-- The value written under a key. -/
def get? : Fields α → String → Option α
  | [], _ => none
  | (k, v) :: rest, key => if k = key then some v else get? rest key

/-- A key is written. -/
def contains (fs : Fields α) (key : String) : Bool := (fs.get? key).isSome

/-- Writes a key: in place when it is there, at the end otherwise. -/
def insert : Fields α → String → α → Fields α
  | [], key, v => [(key, v)]
  | (k, w) :: rest, key, v =>
    if k = key then (key, v) :: rest else (k, w) :: insert rest key v

/-- Drops a key. -/
def erase (fs : Fields α) (key : String) : Fields α := fs.filter fun f => f.1 ≠ key

/-- Writes pairs one after the other. -/
def insertAll (fs gs : Fields α) : Fields α := gs.foldl (fun acc g => acc.insert g.1 g.2) fs

/-- The map that pairs written one after the other leave behind. -/
def ofList (gs : List (String × α)) : Fields α := insertAll [] gs

/-- No key is written twice. -/
def Distinct (fs : Fields α) : Prop := fs.keys.Nodup

instance (fs : Fields α) : Decidable fs.Distinct := inferInstanceAs (Decidable fs.keys.Nodup)

/-! ### Looking up -/

@[simp] theorem get?_nil (key : String) : get? ([] : Fields α) key = none := rfl

theorem get?_cons (f : String × α) (fs : Fields α) (key : String) :
    get? (f :: fs) key = if f.1 = key then some f.2 else get? fs key := rfl

@[simp] theorem keys_cons (f : String × α) (fs : Fields α) : keys (f :: fs) = f.1 :: keys fs := rfl

theorem get?_eq_none_iff {fs : Fields α} {key : String} :
    fs.get? key = none ↔ key ∉ fs.keys := by
  induction fs with
  | nil => simp [keys]
  | cons f fs ih =>
    by_cases h : f.1 = key
    · simp [get?_cons, h]
    · simp [get?_cons, h, ih, Ne.symm h]

theorem mem_of_get? {fs : Fields α} {key : String} {v : α} (h : fs.get? key = some v) :
    (key, v) ∈ fs := by
  induction fs with
  | nil => simp at h
  | cons f fs ih =>
    rw [get?_cons] at h
    split at h
    · rename_i hk
      obtain rfl := Option.some.inj h
      exact hk ▸ List.mem_cons_self
    · exact List.mem_cons_of_mem _ (ih h)

theorem get?_of_mem {fs : Fields α} (h : Distinct fs) {key : String} {v : α}
    (hm : (key, v) ∈ fs) : fs.get? key = some v := by
  induction fs with
  | nil => simp at hm
  | cons f fs ih =>
    obtain ⟨hf, hd⟩ := List.nodup_cons.1 h
    rcases List.mem_cons.1 hm with rfl | hm
    · simp [get?_cons]
    · have hk : f.1 ≠ key := fun e => hf (e ▸ List.mem_map_of_mem hm)
      rw [get?_cons, if_neg hk]
      exact ih hd hm

theorem get?_map (f : α → β) (fs : Fields α) (key : String) :
    get? (fs.map fun e => (e.1, f e.2)) key = (fs.get? key).map f := by
  induction fs with
  | nil => rfl
  | cons e fs ih =>
    rw [List.map_cons, get?_cons, get?_cons, ih]
    split <;> rfl

theorem contains_iff {fs : Fields α} {key : String} : fs.contains key = true ↔ key ∈ fs.keys := by
  rw [contains, Option.isSome_iff_ne_none, Ne, get?_eq_none_iff, Decidable.not_not]

theorem get?_append (fs gs : Fields α) (key : String) :
    get? (fs ++ gs) key = (fs.get? key).or (gs.get? key) := by
  induction fs with
  | nil => simp
  | cons f fs ih =>
    rw [List.cons_append, get?_cons, get?_cons, ih]
    split <;> simp

theorem erase_cons (f : String × α) (fs : Fields α) (key : String) :
    erase (f :: fs) key = if f.1 = key then erase fs key else f :: erase fs key := by
  by_cases h : f.1 = key <;> simp [erase, h]

theorem get?_erase (fs : Fields α) (key k : String) :
    get? (fs.erase key) k = if k = key then none else fs.get? k := by
  induction fs with
  | nil => simp [erase]
  | cons f fs ih =>
    rw [erase_cons]
    by_cases h : f.1 = key
    · rw [if_pos h, ih, get?_cons, h]
      by_cases hk : k = key
      · simp [hk]
      · simp [hk, Ne.symm hk]
    · rw [if_neg h, get?_cons, get?_cons, ih]
      by_cases hk : f.1 = k
      · have hne : k ≠ key := hk ▸ h
        simp [hk, hne]
      · simp [hk]

/-! ### Writing -/

theorem insert_cons_of_ne {f : String × α} {key : String} (h : f.1 ≠ key) (fs : Fields α) (v : α) :
    insert (f :: fs) key v = f :: insert fs key v := if_neg h

/-- The value that is written last stays. -/
theorem insert_insert (fs : Fields α) (key : String) (v w : α) :
    insert (fs.insert key v) key w = fs.insert key w := by
  induction fs with
  | nil => simp [insert]
  | cons f fs ih =>
    by_cases h : f.1 = key
    · simp [insert, h]
    · rw [insert_cons_of_ne h, insert_cons_of_ne h, insert_cons_of_ne h, ih]

/-- Pairs that leave a key alone leave its field in the first place. -/
theorem insertAll_cons_of_notMem {f : String × α} {gs : Fields α} (h : f.1 ∉ gs.keys)
    (fs : Fields α) : insertAll (f :: fs) gs = f :: insertAll fs gs := by
  induction gs generalizing fs with
  | nil => rfl
  | cons g gs ih =>
    obtain ⟨hg, hgs⟩ := not_or.1 (mt List.mem_cons.2 h)
    calc insertAll (f :: fs) (g :: gs)
        = insertAll (insert (f :: fs) g.1 g.2) gs := rfl
      _ = insertAll (f :: insert fs g.1 g.2) gs := by rw [insert_cons_of_ne hg]
      _ = f :: insertAll (insert fs g.1 g.2) gs := ih hgs _

theorem get?_insert (fs : Fields α) (key : String) (v : α) (k : String) :
    (fs.insert key v).get? k = if key = k then some v else fs.get? k := by
  induction fs with
  | nil => simp [insert, get?_cons]
  | cons f fs ih =>
    simp only [insert]
    by_cases h : f.1 = key
    · subst h
      by_cases hk : f.1 = k <;> simp [get?_cons, hk]
    · rw [if_neg h, get?_cons, get?_cons, ih]
      by_cases hk : f.1 = k
      · subst hk
        simp [Ne.symm h]
      · simp [hk]

theorem keys_insert (fs : Fields α) (key : String) (v : α) :
    keys (fs.insert key v) = if key ∈ fs.keys then fs.keys else fs.keys ++ [key] := by
  induction fs with
  | nil => simp [insert, keys]
  | cons f fs ih =>
    simp only [insert]
    by_cases h : f.1 = key
    · subst h
      simp
    · rw [if_neg h, keys_cons, ih]
      by_cases hk : key ∈ keys fs <;> simp [hk, Ne.symm h]

theorem keys_insert_of_notMem {fs : Fields α} {key : String} (h : key ∉ fs.keys) (v : α) :
    keys (fs.insert key v) = fs.keys ++ [key] := by
  rw [keys_insert, if_neg h]

theorem mem_insert {fs : Fields α} {key : String} {v : α} {f : String × α}
    (h : f ∈ fs.insert key v) : f = (key, v) ∨ f ∈ fs := by
  induction fs with
  | nil => exact Or.inl (List.mem_singleton.1 h)
  | cons g fs ih =>
    rw [insert] at h
    split at h
    · rcases List.mem_cons.1 h with h | h
      · exact Or.inl h
      · exact Or.inr (List.mem_cons_of_mem _ h)
    · rcases List.mem_cons.1 h with h | h
      · exact Or.inr (h ▸ List.mem_cons_self)
      · exact (ih h).imp_right (List.mem_cons_of_mem _)

theorem Distinct.insert {fs : Fields α} (h : Distinct fs) (key : String) (v : α) :
    Distinct (fs.insert key v) := by
  unfold Distinct at h ⊢
  rw [keys_insert]
  split
  · exact h
  · rename_i hk
    exact List.nodup_append.2 ⟨h, by simp, by
      intro a ha b hb
      rw [List.mem_singleton] at hb
      exact fun e => hk (hb ▸ e ▸ ha)⟩

theorem Distinct.insertAll {fs : Fields α} (h : Distinct fs) (gs : Fields α) :
    Distinct (insertAll fs gs) := by
  induction gs generalizing fs with
  | nil => exact h
  | cons g gs ih => exact ih (h.insert g.1 g.2)

theorem keys_erase (fs : Fields α) (key : String) :
    keys (fs.erase key) = fs.keys.filter (· ≠ key) := by
  simp only [keys, erase, List.filter_map]
  rfl

theorem notMem_keys_erase (fs : Fields α) (key : String) : key ∉ keys (fs.erase key) := by
  simp [keys_erase]

theorem Distinct.erase {fs : Fields α} (h : Distinct fs) (key : String) :
    Distinct (fs.erase key) := by
  rw [Distinct, keys_erase]
  exact h.filter _

theorem erase_insert (fs : Fields α) (key : String) (v : α) :
    erase (fs.insert key v) key = fs.erase key := by
  induction fs with
  | nil => simp [insert, erase]
  | cons f fs ih =>
    rw [insert]
    split
    · rename_i h
      simp [erase_cons, h]
    · rename_i h
      rw [erase_cons, erase_cons, if_neg h, if_neg h, ih]

/-- Pairs that leave a key alone leave its value. -/
theorem get?_insertAll_of_notMem {gs : Fields α} {key : String} (h : key ∉ gs.keys)
    (fs : Fields α) : get? (insertAll fs gs) key = fs.get? key := by
  induction gs generalizing fs with
  | nil => rfl
  | cons g gs ih =>
    obtain ⟨hg, hgs⟩ := not_or.1 (mt List.mem_cons.2 h)
    calc get? (insertAll fs (g :: gs)) key
        = get? (insertAll (fs.insert g.1 g.2) gs) key := rfl
      _ = get? (fs.insert g.1 g.2) key := ih hgs _
      _ = fs.get? key := by rw [get?_insert, if_neg (Ne.symm hg)]

/-- Of pairs with distinct keys, the one that writes a key decides its value. -/
theorem get?_insertAll {gs : Fields α} (h : Distinct gs) (fs : Fields α) (key : String) :
    get? (insertAll fs gs) key = (gs.get? key).or (fs.get? key) := by
  induction gs generalizing fs with
  | nil => rfl
  | cons g gs ih =>
    obtain ⟨hg, hgs⟩ := List.nodup_cons.1 h
    have hrest : get? (insertAll fs (g :: gs)) key =
        (get? gs key).or (get? (fs.insert g.1 g.2) key) := ih hgs _
    rw [hrest, get?_insert, get?_cons]
    by_cases hk : g.1 = key
    · have hnone : get? gs key = none := get?_eq_none_iff.2 (hk ▸ hg)
      simp [hk, hnone]
    · simp [hk]

theorem mem_of_mem_insertAll {fs gs : Fields α} {f : String × α} (h : f ∈ insertAll fs gs) :
    f ∈ fs ∨ f ∈ gs := by
  induction gs generalizing fs with
  | nil => exact Or.inl h
  | cons g gs ih =>
    rcases ih h with h | h
    · rcases mem_insert h with rfl | h
      · exact Or.inr List.mem_cons_self
      · exact Or.inl h
    · exact Or.inr (List.mem_cons_of_mem _ h)

theorem mem_of_mem_ofList {gs : List (String × α)} {f : String × α} (h : f ∈ ofList gs) :
    f ∈ gs := (mem_of_mem_insertAll h).resolve_left List.not_mem_nil

theorem ofList_distinct (gs : List (String × α)) : (ofList gs).Distinct :=
  (show Distinct ([] : Fields α) by simp [Distinct, keys]).insertAll gs

theorem ofList_append (gs hs : List (String × α)) :
    ofList (gs ++ hs) = insertAll (ofList gs) hs := List.foldl_append

/-- Pairs with distinct keys leave themselves behind. -/
theorem ofList_eq_self {gs : Fields α} (h : gs.Distinct) : ofList gs = gs := by
  induction gs with
  | nil => rfl
  | cons g gs ih =>
    obtain ⟨hg, hgs⟩ := List.nodup_cons.1 h
    calc ofList (g :: gs)
        = insertAll [g] gs := rfl
      _ = g :: insertAll [] gs := insertAll_cons_of_notMem hg []
      _ = g :: gs := congrArg (g :: ·) (ih hgs)

theorem mem_keys_insertAll {fs gs : Fields α} {key : String} :
    key ∈ keys (insertAll fs gs) ↔ key ∈ fs.keys ∨ key ∈ gs.keys := by
  induction gs generalizing fs with
  | nil => simp [insertAll, keys]
  | cons g gs ih =>
    have hinsert : key ∈ keys (fs.insert g.1 g.2) ↔ key ∈ fs.keys ∨ key = g.1 := by
      rw [keys_insert]
      split
      · rename_i hg
        exact ⟨Or.inl, fun h => h.elim id fun e => e ▸ hg⟩
      · simp
    calc key ∈ keys (insertAll fs (g :: gs))
        ↔ key ∈ keys (fs.insert g.1 g.2) ∨ key ∈ keys gs := ih
      _ ↔ (key ∈ fs.keys ∨ key = g.1) ∨ key ∈ keys gs := or_congr_left hinsert
      _ ↔ key ∈ fs.keys ∨ key ∈ keys (g :: gs) := by rw [keys_cons, List.mem_cons, or_assoc]

end Fields

end EntityGraph
