import EntityGraph.Proofs.Compile.Order
import EntityGraph.Proofs.Compile.Resolved

/-!
The variants of an entity compiled together: its public type, its persisted type and its input
type, with all that these lead to. Two variants never build the same type, since a signature tells
the use that a type is for. So where each variant compiles alone, they compile together unless two
of them need one name; the registry then refuses the name to the variant that comes later.
-/

namespace EntityGraph

open Compile

/-! ### What a demand builds, and for which use -/

namespace Demand

variable {x : CompileContext} {p q q' : Demand} {b : Blueprint}

/-- The use that the types of a demand are for. -/
def use? : Demand → Option TypeUse
  | .entity u _ | .property u _ _ => some u
  | .filter _ | .sort _ => none

theorem use?_of_leads (h : Leads x q q') : q'.use? = q.use? := by
  cases h with
  | field | member | item | target => rfl

/-- The signature of a type tells the use. -/
theorem use?_of_blueprint (h : q.blueprint? x = some b) : b.signature.use? = q.use? := by
  cases builds_of_blueprint h with
  | entity u e => exact u.use?_entitySignature _ _
  | shape u name fs => exact u.use?_shapeSignature fs
  | filter | sort => rfl

/-- **A demand builds for its own use only**, however far it leads. -/
theorem use?_of_met (h : Met x [p] q) : q.use? = p.use? := by
  obtain ⟨p', hp', hreach⟩ := h
  obtain rfl := List.mem_singleton.1 hp'
  induction hreach with
  | refl => rfl
  | tail _ hl ih => exact (use?_of_leads hl).trans ih

/-- The demand builds a type of the name, itself or through what it leads to. -/
def Takes (x : CompileContext) (p : Demand) (n : String) : Prop :=
  ∃ q b, Met x [p] q ∧ q.blueprint? x = some b ∧ b.name = n

end Demand

section Together

variable {x : CompileContext} {p q : Demand} {qs : List Demand} {r : TypeRegistry}

theorem met_iff_exists : Met x qs q ↔ ∃ p ∈ qs, Met x [p] q := by
  constructor
  · rintro ⟨p, hp, hreach⟩
    exact ⟨p, hp, p, List.mem_singleton_self p, hreach⟩
  · rintro ⟨p, hp, p', hp', hreach⟩
    obtain rfl := List.mem_singleton.1 hp'
    exact ⟨p', hp, hreach⟩

/-! ### Demands that compile alone -/

/-- A demand that compiles alone leaves a registry at rest, where all that it meets is served. -/
theorem alone_settled (h : (x.answer p .empty).1.isOk = true) :
    ∃ s, Settled x (Met x [p]) s ∧ ∀ q, Met x [p] q → Served x s q := by
  have hok : ∀ a ∈ (x.session [p] .empty).1, a.isOk = true := by
    intro a ha
    obtain rfl := List.mem_singleton.1 ha
    exact h
  exact ⟨_, session_settled hok, fun q hq => session_served hok hq⟩

/-- No answer of a session is that a chain of references is too long. -/
theorem session_ends (x : CompileContext) (qs : List Demand) (r : TypeRegistry) :
    .error .chainTooLong ∉ (x.session qs r).1 := by
  induction qs generalizing r with
  | nil => exact List.not_mem_nil
  | cons q qs ih =>
    rw [CompileContext.session_cons]
    intro hmem
    rcases List.mem_cons.1 hmem with hhead | htail
    · exact (x.answer_agree q r).ends hhead.symm
    · exact ih _ htail

/-- A fault of demands that are met together is a fault of one of them alone, or two of them need
one name. -/
theorem fault_alone_or_conflict {f : CompileFailure} (h : Fault x (Met x qs) (Met x qs) f) :
    (∃ p ∈ qs, Fault x (Met x [p]) (Met x [p]) f) ∨ f = .chainTooLong ∨
      ∃ n, f = .refused (.conflict n) ∧
        ∃ p ∈ qs, ∃ q ∈ qs, p ≠ q ∧ p.Takes x n ∧ q.Takes x n := by
  cases h with
  | chain => exact .inr (.inl rfl)
  | invalid hq hb hn hinvalid =>
    obtain ⟨p, hp, hmet⟩ := met_iff_exists.1 hq
    exact .inl ⟨p, hp, .invalid hmet hb hn hinvalid⟩
  | repeated hq hb hrepeated =>
    obtain ⟨p, hp, hmet⟩ := met_iff_exists.1 hq
    exact .inl ⟨p, hp, .repeated hmet hb hrepeated⟩
  | vacant hq =>
    obtain ⟨p, hp, hmet⟩ := met_iff_exists.1 hq
    exact .inl ⟨p, hp, .vacant hmet⟩
  | unknown hq ha =>
    obtain ⟨p, hp, hmet⟩ := met_iff_exists.1 hq
    exact .inl ⟨p, hp, .unknown hmet ha⟩
  | @conflict q q' b b' hq hb hq' hb' hname hdiffer =>
    obtain ⟨p, hp, hmet⟩ := met_iff_exists.1 hq
    obtain ⟨p', hp', hmet'⟩ := met_iff_exists.1 hq'
    by_cases hsame : p = p'
    · subst hsame
      exact .inl ⟨p, hp, .conflict hmet hb hmet' hb' hname hdiffer⟩
    · exact .inr (.inr ⟨b.name, rfl, p, hp, p', hp', hsame, ⟨q, b, hmet, hb, rfl⟩,
        q', b', hmet', hb', hname⟩)

/-- **Demands that compile alone fail together for a shared name only.** -/
theorem session_conflict (halone : ∀ p ∈ qs, (x.answer p .empty).1.isOk = true)
    {f : CompileFailure} (hf : .error f ∈ (x.session qs .empty).1) :
    ∃ n, f = .refused (.conflict n) ∧
      ∃ p ∈ qs, ∃ q ∈ qs, p ≠ q ∧ p.Takes x n ∧ q.Takes x n := by
  have hfault : Fault x (Met x qs) (Met x qs) f :=
    session_faults (fun _ _ h hl => h.leads hl) (fun _ hq => Met.of_mem hq) .empty hf
  have hlong : f ≠ .chainTooLong := by
    rintro rfl
    exact session_ends x qs .empty hf
  rcases fault_alone_or_conflict hfault with ⟨p, hp, hp'⟩ | hchain | hconflict
  · obtain ⟨s, hsettled, hserved⟩ := alone_settled (halone p hp)
    exact absurd (hsettled.no_fault hserved hp') hlong
  · exact absurd hchain hlong
  · exact hconflict

/-- Demands that have been served together and build types of one name are for one use. -/
theorem use?_eq_of_takes (hok : ∀ a ∈ (x.session qs .empty).1, a.isOk = true) (hp : p ∈ qs)
    (hq : q ∈ qs) {n : String} (hpn : p.Takes x n) (hqn : q.Takes x n) : p.use? = q.use? := by
  obtain ⟨p', b, hp', hb, hname⟩ := hpn
  obtain ⟨q', b', hq', hb', hname'⟩ := hqn
  have hserved : Served x (x.session qs .empty).2 p' :=
    session_served hok (met_iff_exists.2 ⟨p, hp, hp'⟩)
  have hserved' : Served x (x.session qs .empty).2 q' :=
    session_served hok (met_iff_exists.2 ⟨q, hq, hq'⟩)
  have hsig : b'.signature = b.signature :=
    hserved.signature_eq hb hserved' hb' (hname'.trans hname.symm)
  calc p.use? = p'.use? := (Demand.use?_of_met hp').symm
    _ = b.signature.use? := (Demand.use?_of_blueprint hb).symm
    _ = b'.signature.use? := by rw [hsig]
    _ = q'.use? := Demand.use?_of_blueprint hb'
    _ = q.use? := Demand.use?_of_met hq'

end Together

/-! ### The variants of an entity -/

/-- The three types of an entity: the public one, the persisted one and the input. -/
def Entity.variants (e : Entity) : List Demand :=
  [.entity (.output .publicType) e, .entity (.output .entityType) e, .entity .input e]

theorem Entity.eq_of_use?_eq {e : Entity} {p q : Demand} (hp : p ∈ e.variants)
    (hq : q ∈ e.variants) (h : p.use? = q.use?) : p = q := by
  have hdiffer : OutputOptions.publicType ≠ OutputOptions.entityType := by decide
  simp only [Entity.variants, List.mem_cons, List.not_mem_nil, or_false] at hp hq
  rcases hp with rfl | rfl | rfl <;> rcases hq with rfl | rfl | rfl <;>
    simp [Demand.use?, hdiffer, hdiffer.symm] at h ⊢

/-- **The variants of an entity compile together unless two of them need one name.** When each of
the three types compiles alone, they compile one after the other in any order exactly if no type
name is built for two of them, nested types and referenced entities included; and whatever is
refused is refused as a conflict on a name that is. -/
theorem variants_together (x : CompileContext) (e : Entity)
    (halone : ∀ q ∈ e.variants, (x.answer q .empty).1.isOk = true) (qs : List Demand)
    (hqs : qs.Perm e.variants) :
    ((∀ a ∈ (x.session qs .empty).1, a.isOk = true) ↔
      ∀ n, ∀ p ∈ e.variants, ∀ q ∈ e.variants, p.Takes x n → q.Takes x n → p = q) ∧
    ∀ f, .error f ∈ (x.session qs .empty).1 → ∃ n, f = .refused (.conflict n) ∧
      ∃ p ∈ e.variants, ∃ q ∈ e.variants, p ≠ q ∧ p.Takes x n ∧ q.Takes x n := by
  have hmem : ∀ p, p ∈ qs ↔ p ∈ e.variants := fun p => hqs.mem_iff
  have hconflict : ∀ f, .error f ∈ (x.session qs .empty).1 → ∃ n, f = .refused (.conflict n) ∧
      ∃ p ∈ e.variants, ∃ q ∈ e.variants, p ≠ q ∧ p.Takes x n ∧ q.Takes x n := by
    intro f hf
    simp only [← hmem] at halone ⊢
    exact session_conflict halone hf
  refine ⟨⟨fun hok n p hp q hq hpn hqn => ?_, fun hnames a ha => ?_⟩, hconflict⟩
  · have huse := use?_eq_of_takes hok ((hmem p).2 hp) ((hmem q).2 hq) hpn hqn
    exact Entity.eq_of_use?_eq hp hq huse
  · cases a with
    | ok t => rfl
    | error f =>
      obtain ⟨n, -, p, hp, q, hq, hne, hpn, hqn⟩ := hconflict f ha
      exact absurd (hnames n p hp q hq hpn hqn) hne

theorem variants_together_folder :
    let qs := folderEntity.variants.reverse
    (∀ a ∈ (archiveContext.session qs .empty).1, a.isOk = true) ∧
      ∀ n, ∀ p ∈ folderEntity.variants, ∀ q ∈ folderEntity.variants,
        p.Takes archiveContext n → q.Takes archiveContext n → p = q := by
  intro qs
  have halone : ∀ q ∈ folderEntity.variants,
      (archiveContext.answer q .empty).1.isOk = true := by decide +kernel
  have hok : ∀ a ∈ (archiveContext.session qs .empty).1, a.isOk = true := by decide +kernel
  have htogether := variants_together archiveContext folderEntity halone qs
    (List.reverse_perm folderEntity.variants)
  exact ⟨hok, htogether.1.1 hok⟩

/-- **Two variants can need one name**: below, the shape of the public type takes the name of the
persisted type, though the catalog is accepted and each variant compiles alone. -/
theorem variants_clash_part :
    let x : CompileContext := ⟨⟨[partEntity]⟩, .empty⟩
    x.catalog.Accepted ∧ (∀ q ∈ partEntity.variants, (x.answer q .empty).1.isOk = true) ∧
      (x.session partEntity.variants .empty).1 =
        [.ok (.named "part"), .error (.refused (.conflict "partEntity")),
          .ok (.named "partInput")] := by
  intro x
  have haccepted : x.catalog.Accepted :=
    .inl ⟨x.catalog.entities, Catalog.ofEntities_eq_ok_iff.2 ⟨by decide, by decide +kernel, rfl⟩⟩
  exact ⟨haccepted, by decide +kernel, by decide +kernel⟩

end EntityGraph
