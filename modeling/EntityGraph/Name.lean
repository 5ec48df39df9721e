/-!
Names of the GraphQL language: a letter or an underscore, then letters, digits and underscores,
all of them ASCII.
-/

namespace EntityGraph.Name

/-- A character a name may start with. -/
def isStart (c : Char) : Bool := c.isAlpha || c = '_'

/-- A character a name may go on with. -/
def isRest (c : Char) : Bool := c.isAlphanum || c = '_'

/-- The characters of a name. -/
def ValidChars : List Char → Bool
  | [] => false
  | c :: rest => isStart c && rest.all isRest

/-- A valid name. -/
def Valid (name : String) : Bool := ValidChars name.toList

theorem isRest_of_isStart {c : Char} (h : isStart c = true) : isRest c = true := by
  simp only [isStart, isRest, Char.isAlphanum, Bool.or_eq_true, decide_eq_true_eq] at h ⊢
  exact h.imp Or.inl id

theorem validChars_append {cs ds : List Char} (h : ValidChars cs = true)
    (hd : ds.all isRest = true) : ValidChars (cs ++ ds) = true := by
  cases cs with
  | nil => simp [ValidChars] at h
  | cons c cs =>
    simp only [ValidChars, List.cons_append, Bool.and_eq_true, List.all_append] at h ⊢
    exact ⟨h.1, h.2, hd⟩

theorem all_isRest_of_valid {cs : List Char} (h : ValidChars cs = true) :
    cs.all isRest = true := by
  cases cs with
  | nil => rfl
  | cons c cs =>
    simp only [ValidChars, Bool.and_eq_true] at h
    simp only [List.all_cons, Bool.and_eq_true]
    exact ⟨isRest_of_isStart h.1, h.2⟩

/-- A name followed by characters a name may go on with is a name. -/
theorem valid_append {a b : String} (h : Valid a = true) (hb : b.toList.all isRest = true) :
    Valid (a ++ b) = true := by
  unfold Valid
  rw [String.toList_append]
  exact validChars_append h hb

end EntityGraph.Name
