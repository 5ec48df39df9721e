import EntityGraph.Compile.Property
import Mathlib.Data.List.Nodup

/-!
The registry of generated types between two steps. Every reserved name is in exactly one of three
places: its type is under construction, or it is a finished object, or it is a finished input.
Reserving a free name and finishing a name under construction keep this.
-/

namespace EntityGraph

/-- The registry with a type finished under a name. -/
def TypeRegistry.finish (r : TypeRegistry) (name : String) : TypeDef → TypeRegistry
  | .object o => r.finishObject name o
  | .input i => r.finishInput name i
  | .scalar .. | .enum .. => r

namespace TypeRegistry

variable {r s t : TypeRegistry}

/-! ### What is reserved -/

/-- The name is reserved for the signature. -/
def Reserved (r : TypeRegistry) (name : String) (s : Signature) : Prop :=
  Fields.get? r.fingerprints name = some s.fingerprint

/-- What is reserved stays reserved for the same. -/
def Within (r s : TypeRegistry) : Prop :=
  ∀ n f, Fields.get? r.fingerprints n = some f → Fields.get? s.fingerprints n = some f

theorem Within.refl (r : TypeRegistry) : r.Within r := fun _ _ h => h

theorem Within.trans (h : r.Within s) (h' : s.Within t) : r.Within t :=
  fun n f hf => h' n f (h n f hf)

theorem contains_iff {n : String} : r.contains n = true ↔ n ∈ Fields.keys r.fingerprints := by
  rw [← not_iff_not, ← Fields.get?_eq_none_iff]
  simp [contains, Fields.contains]

theorem get?_eq_none_of_free {n : String} (h : r.contains n = false) :
    Fields.get? r.fingerprints n = none := by
  simpa [contains, Fields.contains] using h

theorem Reserved.contains {n : String} {s : Signature} (h : r.Reserved n s) :
    r.contains n = true := by
  simp [TypeRegistry.contains, Fields.contains, show Fields.get? _ _ = _ from h]

theorem get?_enter (r : TypeRegistry) (name f n : String) :
    Fields.get? (r.enter name f).fingerprints n =
      if name = n then some f else Fields.get? r.fingerprints n := Fields.get?_insert _ _ _ _

theorem reserved_enter (r : TypeRegistry) (name : String) (s : Signature) :
    (r.enter name s.fingerprint).Reserved name s := by
  rw [Reserved, get?_enter, if_pos rfl]

theorem within_enter {name : String} (h : Fields.get? r.fingerprints name = none) (f : String) :
    r.Within (r.enter name f) := by
  intro n g hg
  rw [get?_enter]
  split
  · rename_i hn
    rw [← hn, h] at hg
    exact absurd hg (by simp)
  · exact hg

@[simp] theorem fingerprints_finish (r : TypeRegistry) (name : String) (d : TypeDef) :
    (r.finish name d).fingerprints = r.fingerprints := by cases d <;> rfl

/-! ### The three places of a name -/

/-- **The reserved names are the disjoint union** of the names under construction, the finished
objects and the finished inputs: the two lists have the same names, and no name twice. -/
structure Partitioned (r : TypeRegistry) : Prop where
  distinct : (Fields.keys r.fingerprints).Nodup
  parts : (Fields.keys r.fingerprints).Perm
    (r.generating ++ (Fields.keys r.objects ++ Fields.keys r.inputs))

namespace Partitioned

theorem empty : Partitioned .empty := ⟨.nil, .nil⟩

theorem nodup (h : r.Partitioned) :
    (r.generating ++ (Fields.keys r.objects ++ Fields.keys r.inputs)).Nodup :=
  h.parts.nodup_iff.1 h.distinct

theorem generating_nodup (h : r.Partitioned) : r.generating.Nodup := h.nodup.of_append_left

/-- A name under construction is not a finished one. -/
theorem notMem_finished (h : r.Partitioned) {n : String} (hn : n ∈ r.generating) :
    n ∉ Fields.keys r.objects ∧ n ∉ Fields.keys r.inputs := by
  have hdisjoint : n ∉ Fields.keys r.objects ++ Fields.keys r.inputs :=
    fun hmem => List.disjoint_of_nodup_append h.nodup hn hmem
  rwa [List.mem_append, not_or] at hdisjoint

/-- Where no type is under construction, a reserved name is a finished one. -/
theorem mem_finished (h : r.Partitioned) (hrest : r.generating = []) {n : String}
    (hn : r.contains n = true) : n ∈ Fields.keys r.objects ∨ n ∈ Fields.keys r.inputs := by
  have hmem := h.parts.mem_iff.1 (contains_iff.1 hn)
  rw [hrest, List.nil_append, List.mem_append] at hmem
  exact hmem

/-- The name of a finished type is reserved. -/
theorem contains_of_finished (h : r.Partitioned) {n : String}
    (hn : n ∈ Fields.keys r.objects ∨ n ∈ Fields.keys r.inputs) : r.contains n = true :=
  contains_iff.2 (h.parts.mem_iff.2 (List.mem_append_right _ (List.mem_append.2 hn)))

theorem enter (h : r.Partitioned) {name : String} (hfree : Fields.get? r.fingerprints name = none)
    (f : String) : (r.enter name f).Partitioned := by
  have hname : name ∉ Fields.keys r.fingerprints := Fields.get?_eq_none_iff.1 hfree
  have hkeys : Fields.keys (r.enter name f).fingerprints =
      Fields.keys r.fingerprints ++ [name] := by
    rw [TypeRegistry.enter, Fields.keys_insert_of_notMem hname]
  refine ⟨?_, ?_⟩
  · rw [hkeys]
    exact List.nodup_append_comm.1 (List.nodup_cons.2 ⟨hname, h.distinct⟩)
  · rw [hkeys]
    exact (List.perm_append_singleton _ _).trans (h.parts.cons name)

/-- The names under construction are the one to be finished and the others. -/
theorem perm_others (h : r.Partitioned) {name : String} (hname : name ∈ r.generating) :
    r.generating.Perm (name :: r.others name) := by
  have herase : r.others name = r.generating.erase name := by
    rw [h.generating_nodup.erase_eq_filter, others]
    exact List.filter_congr fun n _ => by by_cases hn : n = name <;> simp [hn]
  rw [herase]
  exact List.perm_cons_erase hname

theorem finish (h : r.Partitioned) {name : String} (hname : name ∈ r.generating) (d : TypeDef) :
    (r.finish name d).Partitioned := by
  obtain ⟨hobjects, hinputs⟩ := h.notMem_finished hname
  refine ⟨by simpa using h.distinct, ?_⟩
  rw [fingerprints_finish]
  -- the name moves from the first list to the end of one of the other two
  have hmove : ∀ before after : List String,
      r.others name ++ (Fields.keys r.objects ++ Fields.keys r.inputs) = before ++ after →
      (Fields.keys r.fingerprints).Perm (before ++ name :: after) := by
    intro before after heq
    have hparts := h.parts.trans ((h.perm_others hname).append_right _)
    rw [List.cons_append, heq] at hparts
    exact hparts.trans List.perm_middle.symm
  cases d with
  | scalar | enum => exact h.parts
  | object o =>
    have hmoved := hmove (r.others name ++ Fields.keys r.objects) (Fields.keys r.inputs)
      (by rw [List.append_assoc])
    simpa [TypeRegistry.finish, finishObject, Fields.keys_insert_of_notMem hobjects] using hmoved
  | input i =>
    have hmoved := hmove (r.others name ++ (Fields.keys r.objects ++ Fields.keys r.inputs)) []
      (by rw [List.append_nil])
    simpa [TypeRegistry.finish, finishInput, Fields.keys_insert_of_notMem hinputs] using hmoved

/-- A type under construction on top of others leaves just these when it is finished. -/
theorem others_of_cons {name : String} {rest : List String} (h : r.Partitioned)
    (hgen : r.generating = name :: rest) : r.others name = rest := by
  have hnodup := h.generating_nodup
  rw [hgen] at hnodup
  have hname : name ∉ rest := (List.nodup_cons.1 hnodup).1
  rw [others, hgen, List.filter_cons_of_neg (by simp)]
  exact List.filter_eq_self.2 fun n hn => by simpa using fun e : n = name => hname (e ▸ hn)

end Partitioned

end TypeRegistry

end EntityGraph
