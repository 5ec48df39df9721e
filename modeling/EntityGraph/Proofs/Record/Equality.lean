import EntityGraph.Proofs.Record.Order

/-!
Equality of values: two values are equal when they are the same JSON or when comparing them ends in
a draw. Next to a number, a boolean or a text the two are one, since such a value draws with
whatever is the same as it.
-/

namespace EntityGraph.ValueKind

variable (kind : ValueKind) {v b : Json} {s : String}

theorem compareTexts_self (s : String) : kind.compareTexts s s = .eq := by
  have hself : compare s s = .eq := Std.compare_self
  cases kind with
  | plain => exact hself
  | timestamp =>
    cases hs : Timestamp.parse? s with
    | none => rw [compareTexts_left hs, hself]
    | some x => rw [compareTexts_timestamps hs hs, Std.compare_self]

/-- A value of some class draws with what is the same JSON. -/
theorem compare?_of_same (hb : b.class? ≠ none) (h : v.same b = true) :
    kind.compare? v b = some .eq := by
  cases b with
  | null | arr | obj => exact absurd rfl hb
  | bool =>
    cases v with
    | bool =>
      obtain rfl := beq_iff_eq.1 h
      exact congrArg some Std.compare_self
    | _ => simp [Json.same] at h
  | int =>
    cases v with
    | int =>
      obtain rfl := beq_iff_eq.1 h
      exact congrArg some Std.compare_self
    | _ => simp [Json.same] at h
  | float y =>
    cases v with
    | float x =>
      have hvalue : x.value = y.value := Binary64.same_iff.1 h
      rw [compare?_of_numbers rfl rfl, Binary64.compare, hvalue, Std.compare_self]
    | _ => simp [Json.same] at h
  | str =>
    cases v with
    | str =>
      obtain rfl := beq_iff_eq.1 h
      exact congrArg some (kind.compareTexts_self _)
    | _ => simp [Json.same] at h

/-- **Next to a value of some class, equality is a draw.** -/
theorem equal_iff_of_class? (hb : b.class? ≠ none) :
    kind.equal v b = true ↔ kind.compare? v b = some .eq := by
  rw [equal, Bool.or_eq_true, beq_iff_eq]
  exact or_iff_right_of_imp (kind.compare?_of_same hb)

/-- Values of one class compare. -/
theorem exists_compare? (hb : b.class? ≠ none) (h : v.class? = b.class?) :
    ∃ o, kind.compare? v b = some o := by
  obtain ⟨c, hc⟩ := Option.ne_none_iff_exists'.1 hb
  cases c with
  | number =>
    obtain ⟨x, hx⟩ := Json.class?_eq_number_iff.1 (h.trans hc)
    obtain ⟨y, hy⟩ := Json.class?_eq_number_iff.1 hc
    exact ⟨_, compare?_of_numbers hx hy⟩
  | boolean =>
    obtain ⟨x, rfl⟩ := Json.class?_eq_boolean_iff.1 (h.trans hc)
    obtain ⟨y, rfl⟩ := Json.class?_eq_boolean_iff.1 hc
    exact ⟨_, rfl⟩
  | text =>
    obtain ⟨s, rfl⟩ := Json.class?_eq_text_iff.1 (h.trans hc)
    obtain ⟨t, rfl⟩ := Json.class?_eq_text_iff.1 hc
    exact ⟨_, rfl⟩

theorem draw_symm {kind : ValueKind} (h : kind.compare? v b = some .eq) :
    kind.compare? b v = some .eq := by
  rw [compare?_swap, h]
  rfl

/-- A text equals nothing but what it draws with. -/
theorem equal_text_iff : kind.equal (.str s) b = true ↔ kind.compare? (.str s) b = some .eq := by
  cases b with
  | str u => exact kind.equal_iff_of_class? nofun
  | null | bool | int | float | arr | obj => exact iff_of_false nofun nofun

end EntityGraph.ValueKind
