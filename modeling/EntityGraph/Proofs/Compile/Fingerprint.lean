import EntityGraph.Compile.Signature

/-!
Fingerprints tell signatures apart. Every part of a fingerprint ends where its own text says it
ends, whatever follows, so a text that starts with the code of a part starts with the code of no
other; the whole is then read from the left, part by part.
-/

namespace EntityGraph.Signature

variable {α β : Type}

/-! ### Codes that end by themselves -/

/-- The code of a value is told from that of every other, whatever follows the two. -/
def Delimits (code : α → List Char) (a : α) : Prop :=
  ∀ b u v, code a ++ u = code b ++ v → a = b ∧ u = v

theorem Delimits.pair {code : α → List Char} {code' : β → List Char} {p : α × β}
    (h : Delimits code p.1) (h' : Delimits code' p.2) :
    Delimits (fun p : α × β => code p.1 ++ code' p.2) p := by
  rintro ⟨a, b⟩ u v e
  simp only [List.append_assoc] at e
  obtain ⟨h1, e1⟩ := h _ _ _ e
  obtain ⟨h2, e2⟩ := h' _ _ _ e1
  exact ⟨Prod.ext h1 h2, e2⟩

theorem delimits_listCode {code : α → List Char} :
    ∀ {as : List α}, (∀ a ∈ as, Delimits code a) → Delimits (listCode code) as
  | [], _ => by
    rintro (_ | ⟨b, bs⟩) u v e
    · simpa [listCode] using e
    · simp [listCode] at e
  | a :: as, h => by
    rintro (_ | ⟨b, bs⟩) u v e
    · simp [listCode] at e
    · simp only [listCode, List.cons_append, List.append_assoc, List.cons.injEq, true_and] at e
      obtain ⟨rfl, e1⟩ := h a List.mem_cons_self _ _ _ e
      have hrest := delimits_listCode fun c hc => h c (List.mem_cons_of_mem _ hc)
      obtain ⟨rfl, e2⟩ := hrest _ _ _ e1
      exact ⟨rfl, e2⟩

/-- Codes in a row are told apart by what stops them, where no code starts with this. -/
theorem flatMap_append_inj {code : α → List Char} {stop : Char}
    (hstop : ∀ a u v, code a ++ u ≠ stop :: v) {as bs : List α} {u v : List Char}
    (hcode : ∀ a ∈ as, Delimits code a)
    (e : as.flatMap code ++ stop :: u = bs.flatMap code ++ stop :: v) : as = bs ∧ u = v := by
  induction as generalizing bs with
  | nil =>
    cases bs with
    | nil => simpa using e
    | cons b bs =>
      rw [List.flatMap_cons, List.append_assoc] at e
      exact absurd e.symm (hstop b _ _)
  | cons a as ih =>
    cases bs with
    | nil =>
      rw [List.flatMap_cons, List.append_assoc] at e
      exact absurd e (hstop a _ _)
    | cons b bs =>
      rw [List.flatMap_cons, List.flatMap_cons, List.append_assoc, List.append_assoc] at e
      obtain ⟨rfl, e1⟩ := hcode a List.mem_cons_self _ _ _ e
      obtain ⟨rfl, e2⟩ := ih (fun c hc => hcode c (List.mem_cons_of_mem _ hc)) e1
      exact ⟨rfl, e2⟩

/-! ### Texts and flags -/

theorem charCode_quote (c : Char) (u v : List Char) : charCode c ++ u ≠ '"' :: v := by
  unfold charCode
  split
  · simp
  · rename_i h
    simp only [List.cons_append, List.nil_append, ne_eq, List.cons.injEq, not_and]
    exact fun e => absurd (Or.inl e) h

theorem delimits_charCode (c : Char) : Delimits charCode c := by
  intro d u v e
  unfold charCode at e
  by_cases hc : c = '"' ∨ c = '\\' <;> by_cases hd : d = '"' ∨ d = '\\'
  · simpa [hc, hd] using e
  · simp only [hc, hd, if_true, if_false, List.cons_append, List.cons.injEq] at e
    exact absurd (Or.inr e.1.symm) hd
  · simp only [hc, hd, if_true, if_false, List.cons_append, List.cons.injEq] at e
    exact absurd (Or.inr e.1) hc
  · simpa [hc, hd] using e

theorem delimits_textCode (s : String) : Delimits textCode s := by
  intro t u v e
  simp only [textCode, List.cons_append, List.append_assoc, List.nil_append, List.cons.injEq,
    true_and] at e
  obtain ⟨h, huv⟩ := flatMap_append_inj charCode_quote (fun c _ => delimits_charCode c) e
  exact ⟨String.toList_injective h, huv⟩

theorem delimits_flagCode (b : Bool) : Delimits flagCode b := by
  intro b' u v e
  have hb : (if b then '+' else '-') = if b' then '+' else '-' := (List.cons.inj e).1
  refine ⟨?_, (List.cons.inj e).2⟩
  cases b <;> cases b' <;> simp at hb ⊢

theorem delimits_scalarCode (k : ScalarKind) : Delimits scalarCode k := by
  intro k' u v e
  cases k <;> cases k' <;> simp [scalarCode] at e ⊢ <;> exact e

/-! ### Types -/

theorem fieldCodes_eq : ∀ fs : List (String × PropertyType),
    fieldCodes fs = listCode (fun f => textCode f.1 ++ typeCode f.2) fs
  | [] => by simp [fieldCodes, listCode]
  | (k, t) :: fs => by simp [fieldCodes, listCode, fieldCodes_eq fs]

theorem delimits_fieldCodes {fs : List (String × PropertyType)}
    (h : ∀ f ∈ fs, Delimits typeCode f.2) : Delimits fieldCodes fs := by
  have hlist : Delimits (listCode fun f => textCode f.1 ++ typeCode f.2) fs :=
    delimits_listCode fun f hf => (delimits_textCode f.1).pair (h f hf)
  intro gs u v e
  rw [fieldCodes_eq, fieldCodes_eq] at e
  exact hlist gs u v e

theorem delimits_typeCode (t : PropertyType) : Delimits typeCode t := by
  induction t using PropertyType.induct with
  | scalar k =>
    rintro (k' | fs | t | a) u v e
    · obtain ⟨rfl, huv⟩ := delimits_scalarCode k k' u v (by simpa [typeCode] using e)
      exact ⟨rfl, huv⟩
    all_goals cases k <;> simp [typeCode, scalarCode] at e
  | shape fs ih =>
    rintro (k | gs | t | a) u v e
    · cases k <;> simp [typeCode, scalarCode] at e
    · obtain ⟨rfl, huv⟩ := delimits_fieldCodes ih gs u v (by simpa [typeCode] using e)
      exact ⟨rfl, huv⟩
    all_goals simp [typeCode] at e
  | array t ih =>
    rintro (k | gs | t' | a) u v e
    · cases k <;> simp [typeCode, scalarCode] at e
    · simp [typeCode] at e
    · obtain ⟨rfl, huv⟩ := ih t' u v (by simpa [typeCode] using e)
      exact ⟨rfl, huv⟩
    · simp [typeCode] at e
  | reference a =>
    rintro (k | gs | t' | b) u v e
    · cases k <;> simp [typeCode, scalarCode] at e
    · simp [typeCode] at e
    · simp [typeCode] at e
    · obtain ⟨rfl, huv⟩ := delimits_textCode a b u v (by simpa [typeCode] using e)
      exact ⟨rfl, huv⟩

theorem delimits_optionsCode (o : OutputOptions) : Delimits optionsCode o := by
  obtain ⟨p, s, b, f⟩ := o
  rintro ⟨p', s', b', f'⟩ u v e
  simp only [optionsCode, List.append_assoc] at e
  obtain ⟨rfl, e1⟩ := delimits_textCode _ _ _ _ e
  obtain ⟨rfl, e2⟩ := delimits_textCode _ _ _ _ e1
  obtain ⟨rfl, e3⟩ := delimits_flagCode _ _ _ _ e2
  obtain ⟨hf, e4⟩ := delimits_flagCode _ _ _ _ e3
  have hsource : f = f' := by
    cases f <;> cases f' <;> simp at hf ⊢
  exact ⟨by rw [hsource], e4⟩

theorem delimits_entityFieldCode (f : String × PropertyType × Bool) :
    Delimits entityFieldCode f := by
  rintro ⟨k, t, b⟩ u v e
  simp only [entityFieldCode, List.append_assoc] at e
  obtain ⟨hk, e1⟩ := delimits_textCode _ _ _ _ e
  obtain ⟨ht, e2⟩ := delimits_typeCode _ _ _ _ e1
  obtain ⟨hb, e3⟩ := delimits_flagCode _ _ _ _ e2
  exact ⟨Prod.ext hk (Prod.ext ht hb), e3⟩

/-! ### Signatures -/

theorem delimits_code (s : Signature) : Delimits code s := by
  have hfields (fs) : Delimits fieldCodes fs := delimits_fieldCodes fun f _ => delimits_typeCode f.2
  intro t u v e
  -- the first character tells the kinds of signatures apart
  cases s <;> cases t <;>
    simp only [code, List.cons_append, List.append_assoc, List.cons.injEq] at e <;>
    try exact absurd e.1 (by decide)
  case entityObject.entityObject =>
    obtain ⟨rfl, e1⟩ := delimits_textCode _ _ _ _ e.2
    obtain ⟨rfl, e2⟩ := delimits_optionsCode _ _ _ _ e1
    obtain ⟨rfl, e3⟩ := delimits_listCode (fun f _ => delimits_entityFieldCode f) _ _ _ e2
    exact ⟨rfl, e3⟩
  case shapeObject.shapeObject =>
    obtain ⟨rfl, e1⟩ := delimits_optionsCode _ _ _ _ e.2
    obtain ⟨rfl, e2⟩ := hfields _ _ _ _ e1
    exact ⟨rfl, e2⟩
  case entityInput.entityInput =>
    obtain ⟨rfl, e1⟩ := delimits_textCode _ _ _ _ e.2
    obtain ⟨rfl, e2⟩ := hfields _ _ _ _ e1
    exact ⟨rfl, e2⟩
  case shapeInput.shapeInput =>
    obtain ⟨rfl, e1⟩ := hfields _ _ _ _ e.2
    exact ⟨rfl, e1⟩
  case filterInput.filterInput =>
    obtain ⟨rfl, e1⟩ := delimits_listCode
      (fun f _ => (delimits_textCode f.1).pair (delimits_textCode f.2)) _ _ _ e.2
    exact ⟨rfl, e1⟩
  case sortInput.sortInput =>
    obtain ⟨rfl, e1⟩ := delimits_listCode (fun k _ => delimits_textCode k) _ _ _ e.2
    exact ⟨rfl, e1⟩

/-- **A fingerprint stands for one signature.** -/
theorem fingerprint_injective : Function.Injective fingerprint := by
  intro s t h
  have hcode : s.code = t.code := by
    simpa [fingerprint, String.toList_ofList] using congrArg String.toList h
  exact (delimits_code s t [] [] (by rw [hcode])).1

end EntityGraph.Signature
