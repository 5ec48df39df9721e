import EntityGraph.Proofs.Compile.Fingerprint
import EntityGraph.Text.Quoted
import Mathlib.Data.Nat.Notation
import Mathlib.Tactic.SplitIfs

/-!
Signatures in words. A signature may also be spelled out: a word for its kind, the alias of an
entity as it stands, the options, and the fields in brackets, with texts in quotes. Whatever
characters the keys consist of, the spelling tells signatures apart as well as the fingerprint,
so long as no alias has a colon in it.
-/

namespace EntityGraph

/-! ### Quoted texts -/

namespace Text

open Signature (Delimits)

/-- Two lists are told apart by what stops them, where it is in neither of them. -/
theorem append_stop_inj {stop : Char} {as bs u v : List Char} (has : stop ∉ as) (hbs : stop ∉ bs)
    (h : as ++ stop :: u = bs ++ stop :: v) : as = bs ∧ u = v := by
  induction as generalizing bs with
  | nil =>
    cases bs with
    | nil => simpa using h
    | cons b bs => exact absurd (List.cons.inj h).1 (List.ne_of_not_mem_cons hbs)
  | cons a as ih =>
    cases bs with
    | nil => exact absurd (List.cons.inj h).1.symm (List.ne_of_not_mem_cons has)
    | cons b bs =>
      obtain ⟨rfl, hrest⟩ := List.cons.inj h
      obtain ⟨rfl, rfl⟩ := ih (List.not_mem_of_not_mem_cons has)
        (List.not_mem_of_not_mem_cons hbs) hrest
      exact ⟨rfl, rfl⟩

theorem toDigits_of_ge {n : ℕ} (h : 16 ≤ n) :
    Nat.toDigits 16 n = Nat.toDigits 16 (n / 16) ++ [Nat.digitChar (n % 16)] :=
  Nat.toDigits_of_base_le (by decide) h

theorem digitChar_inj {m n : ℕ} (hm : m < 16) (hn : n < 16) (h : m.digitChar = n.digitChar) :
    m = n := by
  have hall : ∀ a : Fin 16, ∀ b : Fin 16, Nat.digitChar a = Nat.digitChar b → a = b := by decide
  exact congrArg Fin.val (hall ⟨m, hm⟩ ⟨n, hn⟩ h)

theorem toDigits_inj {m n : ℕ} (h : Nat.toDigits 16 m = Nat.toDigits 16 n) : m = n := by
  induction m using Nat.strongRecOn generalizing n with
  | ind m ih =>
    rcases Nat.lt_or_ge m 16 with hm | hm <;> rcases Nat.lt_or_ge n 16 with hn | hn
    · rw [Nat.toDigits_of_lt_base hm, Nat.toDigits_of_lt_base hn] at h
      exact digitChar_inj hm hn (List.cons.inj h).1
    · rw [Nat.toDigits_of_lt_base hm, toDigits_of_ge hn, eq_comm] at h
      exact absurd (List.append_eq_singleton_iff.1 h) (by simp [Nat.toDigits_ne_nil])
    · rw [Nat.toDigits_of_lt_base hn, toDigits_of_ge hm] at h
      exact absurd (List.append_eq_singleton_iff.1 h) (by simp [Nat.toDigits_ne_nil])
    · rw [toDigits_of_ge hm, toDigits_of_ge hn] at h
      obtain ⟨hfront, hlast⟩ := List.append_inj' h rfl
      have hquotient := ih (m / 16) (Nat.div_lt_self (by omega) (by decide)) hfront
      have hrest := digitChar_inj (Nat.mod_lt m (by decide)) (Nat.mod_lt n (by decide))
        (List.cons.inj hlast).1
      omega

theorem notMem_toDigits (n : ℕ) : '}' ∉ Nat.toDigits 16 n := by
  have hdigit : ∀ d : Fin 16, '}' ≠ Nat.digitChar d := by decide
  induction n using Nat.strongRecOn with
  | ind n ih =>
    rcases Nat.lt_or_ge n 16 with hn | hn
    · rw [Nat.toDigits_of_lt_base hn, List.mem_singleton]
      exact hdigit ⟨n, hn⟩
    · rw [toDigits_of_ge hn, List.mem_append, List.mem_singleton, not_or]
      exact ⟨ih _ (Nat.div_lt_self (by omega) (by decide)),
        hdigit ⟨n % 16, Nat.mod_lt n (by decide)⟩⟩

/-- The escapes that are written with a letter or a sign. -/
def shortEscapes : List (Char × Char) :=
  [('"', '"'), ('\\', '\\'), ('n', '\n'), ('t', '\t'), ('r', '\r'), ('0', '\x00')]

/-- What follows the backslash of an escape for a character. -/
inductive Escapes : Char → List Char → Prop
  | short {c k : Char} : (k, c) ∈ shortEscapes → Escapes c [k]
  | number (c : Char) : Escapes c ('u' :: '{' :: (Nat.toDigits 16 c.toNat ++ ['}']))

/-- A character between quotes is an escape, or it stands for itself. -/
theorem quotedChar_cases (c : Char) :
    (∃ e, Escapes c e ∧ quotedChar c = '\\' :: e) ∨
      quotedChar c = [c] ∧ c ≠ '"' ∧ c ≠ '\\' := by
  unfold quotedChar
  split_ifs with hquote hback hline htab hreturn hzero hnumber
  · exact .inl ⟨_, .short (by simp [shortEscapes, hquote]), rfl⟩
  · exact .inl ⟨_, .short (by simp [shortEscapes, hback]), rfl⟩
  · exact .inl ⟨_, .short (by simp [shortEscapes, hline]), rfl⟩
  · exact .inl ⟨_, .short (by simp [shortEscapes, htab]), rfl⟩
  · exact .inl ⟨_, .short (by simp [shortEscapes, hreturn]), rfl⟩
  · have hc : c = '\x00' := Char.ext (UInt32.toNat_inj.1 hzero)
    exact .inl ⟨_, .short (by simp [shortEscapes, hc]), rfl⟩
  · exact .inl ⟨_, .number c, rfl⟩
  · exact .inr ⟨rfl, hquote, hback⟩

/-- An escape is told from every other, whatever follows. -/
theorem Escapes.inj {c d : Char} {e f u v : List Char} (he : Escapes c e) (hf : Escapes d f)
    (h : e ++ u = f ++ v) : c = d ∧ u = v := by
  have hletter : ∀ p ∈ shortEscapes, p.1 ≠ 'u' := by decide
  have hsame : ∀ p ∈ shortEscapes, ∀ p' ∈ shortEscapes, p.1 = p'.1 → p.2 = p'.2 := by decide
  cases he with
  | short hk =>
    cases hf with
    | short hk' =>
      obtain ⟨hkey, rfl⟩ := List.cons.inj h
      exact ⟨hsame _ hk _ hk' hkey, rfl⟩
    | number => exact absurd (List.cons.inj h).1 (hletter _ hk)
  | number =>
    cases hf with
    | short hk' => exact absurd (List.cons.inj h).1.symm (hletter _ hk')
    | number =>
      simp only [List.cons_append, List.append_assoc, List.nil_append, List.cons.injEq,
        true_and] at h
      obtain ⟨hdigits, rfl⟩ := append_stop_inj (notMem_toDigits _) (notMem_toDigits _) h
      exact ⟨Char.toNat_inj.1 (toDigits_inj hdigits), rfl⟩

theorem delimits_quotedChar (c : Char) : Delimits quotedChar c := by
  intro d u v h
  rcases quotedChar_cases c with ⟨e, he, hc⟩ | ⟨hc, -, hback⟩ <;>
    rcases quotedChar_cases d with ⟨f, hf, hd⟩ | ⟨hd, -, hback'⟩ <;> rw [hc, hd] at h
  · exact he.inj hf (List.cons.inj h).2
  · exact absurd (List.cons.inj h).1.symm hback'
  · exact absurd (List.cons.inj h).1 hback
  · exact List.cons.inj h

theorem quotedChar_quote (c : Char) (u v : List Char) : quotedChar c ++ u ≠ '"' :: v := by
  rcases quotedChar_cases c with ⟨e, -, h⟩ | ⟨h, hquote, -⟩ <;> rw [h]
  · simp
  · simp [hquote]

/-- The characters of a text in quotes. -/
def quotedChars (s : String) : List Char := '"' :: (s.toList.flatMap quotedChar ++ ['"'])

theorem delimits_quotedChars (s : String) : Delimits quotedChars s := by
  intro t u v e
  simp only [quotedChars, List.cons_append, List.append_assoc, List.nil_append, List.cons.injEq,
    true_and] at e
  obtain ⟨h, rfl⟩ :=
    Signature.flatMap_append_inj quotedChar_quote (fun c _ => delimits_quotedChar c) e
  exact ⟨String.toList_injective h, rfl⟩

end Text

namespace Signature

open Text (append_stop_inj delimits_quotedChars quotedChars)

/-! ### Spelling parts -/

/-- A text as it stands. It stays folded, since words are compared only where they differ. -/
@[irreducible] def word (s : String) : List Char := s.toList

/-- A list in brackets, with a comma and a space between its elements. -/
def listed {α : Type} (opening closing : Char) (code : α → List Char) : List α → List Char
  | [] => [opening, closing]
  | a :: as => opening :: (code a ++ (as.flatMap (fun a => ',' :: ' ' :: code a) ++ [closing]))

/-- A flag in words. -/
def flagText (b : Bool) : List Char := if b then word "true" else word "false"

mutual

/-- The type of a property in words. -/
def typeText : PropertyType → List Char
  | .scalar k => word k.tag
  | .shape fs => word "Shape(" ++ (fieldsText fs ++ [')'])
  | .array t => word "Array(" ++ (typeText t ++ [')'])
  | .reference a => word "EntityReference(" ++ (quotedChars a ++ [')'])

/-- The fields of a shape in words. -/
def fieldsText : List (String × PropertyType) → List Char
  | [] => ['{', '}']
  | (k, t) :: fs => '{' :: (quotedChars k ++ (word ": " ++ typeText t) ++ moreText fs)

/-- The fields of a shape after the first one. -/
def moreText : List (String × PropertyType) → List Char
  | [] => ['}']
  | (k, t) :: fs => ',' :: ' ' :: (quotedChars k ++ (word ": " ++ typeText t) ++ moreText fs)

end

/-- The source of the fields of an output type in words. -/
def sourceText : FieldSource → List Char
  | .persisted => word "Persisted"
  | .projected => word "Public"

/-- The options of an output type in words. -/
def optionsText (o : OutputOptions) : List Char :=
  word "EntityTypeOptions \x7b prefix: " ++ (quotedChars o.namePrefix ++
    (word ", suffix: " ++ (quotedChars o.nameSuffix ++
      (word ", attach_resolvers: " ++ (flagText o.attachComputations ++
        (word ", projection: " ++ (sourceText o.fields ++ word " \x7d")))))))

/-- Two parts of an element in parentheses. -/
def pairText {α : Type} (code : α → List Char) (f : String × α) : List Char :=
  '(' :: (quotedChars f.1 ++ (word ", " ++ (code f.2 ++ [')'])))

/-- The characters of a spelling. -/
def spelled : Signature → List Char
  | .entityObject a o fs => word "object:entity:" ++ (a.toList ++ ':' :: (optionsText o ++
      ':' :: listed '[' ']' (pairText fun f => typeText f.1 ++ (word ", " ++ flagText f.2)) fs))
  | .shapeObject o fs => word "object:shape:" ++ (optionsText o ++ ':' :: fieldsText fs)
  | .entityInput a fs =>
    word "input:entity:" ++ (a.toList ++ ':' :: listed '[' ']' (pairText typeText) fs)
  | .shapeInput fs => word "input:shape:" ++ fieldsText fs
  | .filterInput fs =>
    word "input:filter:" ++ listed '[' ']' (pairText fun op => quotedChars op) fs
  | .sortInput ks => word "input:sort:" ++ listed '[' ']' (fun k => quotedChars k) ks

/-- A signature in words. -/
def spelling (s : Signature) : String := String.ofList s.spelled

/-! ### Parts end by themselves -/

section Parts

variable {α β : Type} {code : α → List Char} {a : α}

theorem Delimits.after (h : Delimits code a) (l : List Char) :
    Delimits (fun a => l ++ code a) a := by
  intro b u v e
  simp only [List.append_assoc, List.append_cancel_left_eq] at e
  exact h b u v e

theorem Delimits.before (h : Delimits code a) (l : List Char) :
    Delimits (fun a => code a ++ l) a := by
  intro b u v e
  simp only [List.append_assoc] at e
  obtain ⟨hab, e'⟩ := h b _ _ e
  exact ⟨hab, List.append_cancel_left e'⟩

theorem Delimits.next (h : Delimits code a) {b : α} {l u v : List Char}
    (e : l ++ (code a ++ u) = l ++ (code b ++ v)) : a = b ∧ u = v :=
  h b u v (List.append_cancel_left e)

/-- A list ends by itself, where no element starts with the closing bracket. -/
theorem delimits_listed {opening closing : Char} (hcomma : closing ≠ ',')
    (hclosing : ∀ a u v, code a ++ u ≠ closing :: v) {as : List α}
    (h : ∀ a ∈ as, Delimits code a) : Delimits (listed opening closing code) as := by
  rintro bs u v e
  cases as with
  | nil =>
    cases bs with
    | nil => simpa [listed] using e
    | cons b bs =>
      simp only [listed, List.cons_append, List.append_assoc, List.nil_append, List.cons.injEq,
        true_and] at e
      exact absurd e.symm (hclosing b _ _)
  | cons a as =>
    cases bs with
    | nil =>
      simp only [listed, List.cons_append, List.append_assoc, List.nil_append, List.cons.injEq,
        true_and] at e
      exact absurd e (hclosing a _ _)
    | cons b bs =>
      simp only [listed, List.cons_append, List.append_assoc, List.nil_append, List.cons.injEq,
        true_and] at e
      obtain ⟨rfl, e'⟩ := h a List.mem_cons_self _ _ _ e
      have hmore : ∀ c ∈ as, Delimits (fun c => ',' :: ' ' :: code c) c := fun c hc =>
        (h c (List.mem_cons_of_mem _ hc)).after [',', ' ']
      obtain ⟨rfl, rfl⟩ := flatMap_append_inj
        (fun c u v he => hcomma (List.cons.inj he).1.symm) hmore e'
      exact ⟨rfl, rfl⟩

theorem delimits_pairText {f : String × α} (h : Delimits code f.2) :
    Delimits (pairText code) f :=
  ((delimits_quotedChars f.1).pair ((h.before [')']).after (word ", "))).after ['(']

theorem pairText_bracket (f : String × α) (u v : List Char) : pairText code f ++ u ≠ ']' :: v := by
  simp [pairText]

end Parts

theorem delimits_flagText (b : Bool) : Delimits flagText b := by
  intro b' u v e
  cases b <;> cases b' <;> simp [flagText, word] at e ⊢ <;> exact e

theorem delimits_sourceText (f : FieldSource) : Delimits sourceText f := by
  intro f' u v e
  cases f <;> cases f' <;> simp [sourceText, word] at e ⊢ <;> exact e

theorem delimits_optionsText (o : OutputOptions) : Delimits optionsText o := by
  obtain ⟨p, s, b, f⟩ := o
  rintro ⟨p', s', b', f'⟩ u v e
  simp only [optionsText, List.append_assoc] at e
  obtain ⟨rfl, e1⟩ := (delimits_quotedChars p).next e
  obtain ⟨rfl, e2⟩ := (delimits_quotedChars s).next e1
  obtain ⟨rfl, e3⟩ := (delimits_flagText b).next e2
  obtain ⟨rfl, e4⟩ := (delimits_sourceText f).next e3
  exact ⟨rfl, List.append_cancel_left e4⟩

theorem moreText_eq (fs : List (String × PropertyType)) :
    moreText fs = fs.flatMap (fun f =>
      ',' :: ' ' :: (quotedChars f.1 ++ (word ": " ++ typeText f.2))) ++ ['}'] := by
  induction fs with
  | nil => simp [moreText]
  | cons f fs ih => simp [moreText, ih]

theorem fieldsText_eq (fs : List (String × PropertyType)) :
    fieldsText fs =
      listed '{' '}' (fun f => quotedChars f.1 ++ (word ": " ++ typeText f.2)) fs := by
  cases fs with
  | nil => simp [fieldsText, listed]
  | cons f fs => simp [fieldsText, listed, moreText_eq]

theorem delimits_fieldsText {fs : List (String × PropertyType)}
    (h : ∀ f ∈ fs, Delimits typeText f.2) : Delimits fieldsText fs := by
  have hlisted : Delimits (listed '{' '}' fun f : String × PropertyType =>
      quotedChars f.1 ++ (word ": " ++ typeText f.2)) fs :=
    delimits_listed (by decide) (fun f u v => by simp [quotedChars])
      fun f hf => (delimits_quotedChars f.1).pair ((h f hf).after (word ": "))
  intro gs u v e
  rw [fieldsText_eq, fieldsText_eq] at e
  exact hlisted gs u v e

theorem delimits_typeText (t : PropertyType) : Delimits typeText t := by
  induction t using PropertyType.induct with
  | scalar k =>
    rintro (k' | fs | t | a) u v e
    · cases k <;> cases k' <;> simp [typeText, ScalarKind.tag, word] at e ⊢ <;> exact e
    all_goals cases k <;> simp [typeText, ScalarKind.tag, word] at e
  | shape fs ih =>
    rintro (k | gs | t | a) u v e
    · cases k <;> simp [typeText, ScalarKind.tag, word] at e
    · simp only [typeText, List.append_assoc] at e
      obtain ⟨rfl, e1⟩ := (delimits_fieldsText ih).next e
      exact ⟨rfl, List.append_cancel_left e1⟩
    all_goals simp [typeText, word] at e
  | array t ih =>
    rintro (k | gs | t' | a) u v e
    · cases k <;> simp [typeText, ScalarKind.tag, word] at e
    · simp [typeText, word] at e
    · simp only [typeText, List.append_assoc] at e
      obtain ⟨rfl, e1⟩ := ih.next e
      exact ⟨rfl, List.append_cancel_left e1⟩
    · simp [typeText, word] at e
  | reference a =>
    rintro (k | gs | t' | b) u v e
    · cases k <;> simp [typeText, ScalarKind.tag, word] at e
    · simp [typeText, word] at e
    · simp [typeText, word] at e
    · simp only [typeText, List.append_assoc] at e
      obtain ⟨rfl, e1⟩ := (delimits_quotedChars a).next e
      exact ⟨rfl, List.append_cancel_left e1⟩

/-! ### Whole spellings -/

/-- The alias that a spelling has in it as it stands. -/
def alias? : Signature → Option String
  | .entityObject a .. | .entityInput a _ => some a
  | .shapeObject .. | .shapeInput _ | .filterInput _ | .sortInput _ => none

/-- The alias of a signature, if it has one, is free of colons. -/
def PlainAlias (s : Signature) : Prop := ∀ a ∈ s.alias?, ':' ∉ a.toList

/-- An alias that is free of colons ends at the colon behind it. -/
theorem alias_append_inj {a b : String} {u v : List Char} (ha : ':' ∉ a.toList)
    (hb : ':' ∉ b.toList) (e : a.toList ++ ':' :: u = b.toList ++ ':' :: v) : a = b ∧ u = v := by
  obtain ⟨h, rfl⟩ := append_stop_inj ha hb e
  exact ⟨String.toList_injective h, rfl⟩

theorem listed_inj {α : Type} {code : α → List Char} (hcode : ∀ a, Delimits code a)
    (hbracket : ∀ a u v, code a ++ u ≠ ']' :: v) {as bs : List α}
    (e : listed '[' ']' code as = listed '[' ']' code bs) : as = bs :=
  (delimits_listed (by decide) hbracket (fun a _ => hcode a) bs [] [] (by rw [e])).1

theorem quotedChars_bracket (k : String) (u v : List Char) : quotedChars k ++ u ≠ ']' :: v := by
  simp [quotedChars]

/-- **A spelling stands for one signature**, where aliases are free of colons. -/
theorem eq_of_spelled {s t : Signature} (hs : s.PlainAlias) (ht : t.PlainAlias)
    (e : s.spelled = t.spelled) : s = t := by
  have hfields (fs gs) (e : fieldsText fs = fieldsText gs) : fs = gs :=
    (delimits_fieldsText (fun f _ => delimits_typeText f.2) gs [] [] (by rw [e])).1
  -- the first words tell the kinds of signatures apart
  cases s <;> cases t <;> try (simp [spelled, word] at e; done)
  case entityObject.entityObject a o fs b o' gs =>
    obtain ⟨rfl, e1⟩ := alias_append_inj (hs a rfl) (ht b rfl) (List.append_cancel_left e)
    obtain ⟨rfl, e2⟩ := delimits_optionsText o o' _ _ e1
    have hflagged (f : PropertyType × Bool) :
        Delimits (fun f => typeText f.1 ++ (word ", " ++ flagText f.2)) f :=
      (delimits_typeText f.1).pair ((delimits_flagText f.2).after (word ", "))
    rw [listed_inj (fun f => delimits_pairText (hflagged f.2)) pairText_bracket
      (List.cons.inj e2).2]
  case shapeObject.shapeObject o fs o' gs =>
    obtain ⟨rfl, e1⟩ := delimits_optionsText o o' _ _ (List.append_cancel_left e)
    rw [hfields _ _ (List.cons.inj e1).2]
  case entityInput.entityInput a fs b gs =>
    obtain ⟨rfl, e1⟩ := alias_append_inj (hs a rfl) (ht b rfl) (List.append_cancel_left e)
    rw [listed_inj (fun f => delimits_pairText (delimits_typeText f.2)) pairText_bracket e1]
  case shapeInput.shapeInput fs gs => rw [hfields _ _ (List.append_cancel_left e)]
  case filterInput.filterInput fs gs =>
    rw [listed_inj (fun f => delimits_pairText (delimits_quotedChars f.2)) pairText_bracket
      (List.append_cancel_left e)]
  case sortInput.sortInput ks ls =>
    rw [listed_inj delimits_quotedChars quotedChars_bracket (List.append_cancel_left e)]

/-- **Spellings tell signatures apart as fingerprints do.** -/
theorem spelling_eq_iff {s t : Signature} (hs : s.PlainAlias) (ht : t.PlainAlias) :
    s.spelling = t.spelling ↔ s.fingerprint = t.fingerprint := by
  refine ⟨fun h => ?_, fun h => by rw [fingerprint_injective h]⟩
  have hspelled : s.spelled = t.spelled := by
    simpa [spelling, String.toList_ofList] using congrArg String.toList h
  rw [eq_of_spelled hs ht hspelled]

example : (entityInput "part" [("size", .shape [("w", .scalar .number)])]).spelling =
    "input:entity:part:[(\"size\", Shape(\x7b\"w\": Number\x7d))]" := by decide +kernel

end Signature

end EntityGraph
