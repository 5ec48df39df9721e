import EntityGraph.Proofs.Store.Session
import EntityGraph.Repository.Shared

/-!
Shared databases. A name keeps the place it was given, and no other name gets it, so all handles of
a name are one and the same, and handles of different names never meet. Seen by name, the database
is a store, on which a handle does what the repository of its name does.
-/

namespace EntityGraph

open Repository (LoggedCall)

namespace SharedDatabase

variable {d e : SharedDatabase} {name other : String} {p : Nat}

/-! ### Places -/

/-- **What holds of a shared database between two calls**: what the directory lists are places,
and the collection at the place of a name bears this name. -/
structure Sound (d : SharedDatabase) : Prop where
  placed : ∀ {name p}, d.directory.get? name = some p → p < d.places.length
  named : ∀ {name p}, d.directory.get? name = some p → (d.place p).name = name

theorem Sound.start (supply : Nat → String) : Sound (start supply) :=
  ⟨fun h => (nomatch h), fun h => (nomatch h)⟩

/-- No two names have one place. -/
theorem Sound.place_inj (hd : Sound d) (hname : d.directory.get? name = some p)
    (hother : d.directory.get? other = some p) : name = other :=
  (hd.named hname).symm.trans (hd.named hother)

theorem place_putStore (hp : p < d.places.length) (s : Store) (q : Nat) :
    (putStore name p s d).place q = if q = p then s.database.collection name else d.place q := by
  unfold putStore place
  rw [List.getD_eq_getElem?_getD, List.getD_eq_getElem?_getD, List.getElem?_set]
  by_cases hq : q = p
  · rw [if_pos hq.symm, if_pos hp, if_pos hq, Option.getD_some]
  · rw [if_neg (Ne.symm hq), if_neg hq]

/-- A new place leaves the others as they are. -/
theorem place_make_of_lt (hp : p < d.places.length) (name : String) :
    (d.make name).place p = d.place p := by
  unfold place make
  rw [List.getD_eq_getElem?_getD, List.getElem?_append_left hp, List.getD_eq_getElem?_getD]

theorem place_make_length (name : String) (d : SharedDatabase) :
    (d.make name).place d.places.length = .empty name := by
  simp [make, place]

theorem length_places_make (name : String) (d : SharedDatabase) :
    (d.make name).places.length = d.places.length + 1 := List.length_append

theorem get?_directory_make (name : String) (d : SharedDatabase) (other : String) :
    (d.make name).directory.get? other =
      if name = other then some d.places.length else d.directory.get? other :=
  Fields.get?_insert d.directory name d.places.length other

/-! ### Collections by name -/

/-- The ledger of the collection of a name. -/
def ledger (d : SharedDatabase) (name : String) : Ledger := d.toStore.ledger name

theorem collection_toStore (d : SharedDatabase) (name : String) :
    d.toStore.database.collection name =
      ((d.directory.get? name).map d.place).getD (.empty name) :=
  congrArg (Option.getD · _) (Fields.get?_map d.place d.directory name)

theorem collection_toStore_of_get? (h : d.directory.get? name = some p) :
    d.toStore.database.collection name = d.place p := by
  rw [collection_toStore, h, Option.map_some, Option.getD_some]

theorem collection_storeAt (name : String) (p : Nat) (d : SharedDatabase) :
    (d.storeAt name p).database.collection name = d.place p := by
  simp [storeAt, Database.collection, Fields.get?_cons]

/-- What a handle works on holds the collection of its name. -/
theorem collection_storeAt_eq (h : d.directory.get? name = some p) :
    (d.storeAt name p).database.collection name = d.toStore.database.collection name := by
  rw [collection_storeAt, collection_toStore_of_get? h]

theorem Sound.name_collection_toStore (hd : Sound d) (name : String) :
    (d.toStore.database.collection name).name = name := by
  rw [collection_toStore]
  cases h : d.directory.get? name with
  | none => rfl
  | some p => exact hd.named h

/-! ### Handles -/

/-- A handle answers what the repository of its name answers on the store at its place. -/
theorem answer_handle (name : String) (p : Nat) (c : LoggedCall) (d : SharedDatabase) :
    (handle name p).answer c d = (Store.repository name).answer c (d.storeAt name p) := by
  cases c <;> rfl

theorem after_handle (name : String) (p : Nat) (c : LoggedCall) (d : SharedDatabase) :
    (handle name p).after c d =
      putStore name p ((Store.repository name).after c (d.storeAt name p)) d := by
  cases c <;> rfl

/-- A handle on the place of its name answers what the repository of the name answers. -/
theorem answer_toStore (h : d.directory.get? name = some p) (c : LoggedCall) :
    (handle name p).answer c d = (Store.repository name).answer c d.toStore :=
  (answer_handle name p c d).trans
    (Store.answer_congr (t := d.toStore) (collection_storeAt_eq h) rfl c)

/-- It also does the same to every collection. -/
theorem Sound.after_toStore (hd : Sound d) (h : d.directory.get? name = some p) (c : LoggedCall)
    (other : String) :
    ((handle name p).after c d).toStore.database.collection other =
      ((Store.repository name).after c d.toStore).database.collection other := by
  rw [after_handle, collection_toStore]
  by_cases hname : other = name
  · subst hname
    calc ((d.directory.get? other).map (putStore other p _ d).place).getD (.empty other)
        = (putStore other p ((Store.repository other).after c (d.storeAt other p)) d).place p := by
          rw [h, Option.map_some, Option.getD_some]
      _ = ((Store.repository other).after c (d.storeAt other p)).database.collection other := by
          rw [place_putStore (hd.placed h), if_pos rfl]
      _ = ((Store.repository other).after c d.toStore).database.collection other :=
          Store.collection_after_congr (t := d.toStore) (collection_storeAt_eq h) rfl c
  · rw [Store.collection_after_of_ne hname, collection_toStore]
    change ((d.directory.get? other).map (putStore name p _ d).place).getD _ = _
    cases hother : d.directory.get? other with
    | none => rfl
    | some q =>
      have hq : q ≠ p := fun hqp => hname (hd.place_inj hother (hqp ▸ h))
      rw [Option.map_some, Option.map_some, place_putStore (hd.placed h), if_neg hq]

theorem Sound.after (hd : Sound d) (h : d.directory.get? name = some p) (c : LoggedCall) :
    Sound ((handle name p).after c d) := by
  have hafter := after_handle name p c d
  have hname : (((handle name p).after c d).place p).name = (d.place p).name := by
    rw [hafter, place_putStore (hd.placed h), if_pos rfl, Store.name_collection_after,
      collection_storeAt]
  have hdirectory : ((handle name p).after c d).directory = d.directory := by rw [hafter]; rfl
  refine ⟨fun hother => ?_, fun {other q} hother => ?_⟩
  · rw [hdirectory] at hother
    rw [hafter]
    simpa [putStore] using hd.placed hother
  · rw [hdirectory] at hother
    by_cases hq : q = p
    · rw [hq, hname]
      exact hd.named (hq ▸ hother)
    · rw [hafter, place_putStore (hd.placed h), if_neg hq]
      exact hd.named hother

/-! ### Asking for collections -/

/-- Handles by name. -/
abbrev Handles := Fields (Repository SharedDatabase)

/-- Every handle is the one of its name on the place of its name. -/
def Handles.Valid (held : Handles) (d : SharedDatabase) : Prop :=
  ∀ b ∈ held, ∃ p, d.directory.get? b.1 = some p ∧ b.2 = handle b.1 p

/-- A database in which more names may have been asked for. Nothing has changed otherwise. -/
structure Extends (d e : SharedDatabase) : Prop where
  sound : Sound e
  kept : ∀ {name p}, d.directory.get? name = some p → e.directory.get? name = some p
  store : d.toStore.Rearranged e.toStore

theorem Extends.refl (hd : Sound d) : Extends d d := ⟨hd, id, .refl _⟩

theorem Extends.trans {f : SharedDatabase} (hde : Extends d e) (hef : Extends e f) : Extends d f :=
  ⟨hef.sound, fun h => hef.kept (hde.kept h), hde.store.trans hef.store⟩

theorem Handles.Valid.mono {held : Handles} (hh : held.Valid d)
    (hkept : ∀ {name p}, d.directory.get? name = some p → e.directory.get? name = some p) :
    held.Valid e := fun b hb =>
  (hh b hb).imp fun _ hp => ⟨hkept hp.1, hp.2⟩

theorem Handles.Valid.exists_place {held : Handles} (hh : held.Valid d)
    {r : Repository SharedDatabase} (hr : (name, r) ∈ held) :
    ∃ p, d.directory.get? name = some p ∧ r = handle name p := hh _ hr

/-- All valid handles of a name are the same. -/
theorem Handles.Valid.unique {held : Handles} (hh : held.Valid d) {r r' : Repository SharedDatabase}
    (hr : (name, r) ∈ held) (hr' : (name, r') ∈ held) : r = r' := by
  obtain ⟨p, hp, hrp⟩ := hh.exists_place hr
  obtain ⟨q, hq, hrq⟩ := hh.exists_place hr'
  have hpq : p = q := Option.some.inj (hp.symm.trans hq)
  rw [hrp, hrq, hpq]

theorem Handles.Valid.cons {held : Handles} (hh : held.Valid d)
    (hname : d.directory.get? name = some p) : Handles.Valid ((name, handle name p) :: held) d :=
  List.forall_mem_cons.2 ⟨⟨p, hname, rfl⟩, hh⟩

/-- A collection that is made gets a place of its own. -/
theorem Sound.make (hd : Sound d) (name : String) : Sound (d.make name) := by
  refine ⟨fun {other p} hother => ?_, fun {other p} hother => ?_⟩
  · rw [get?_directory_make] at hother
    rw [length_places_make]
    split at hother
    · exact Option.some.inj hother ▸ Nat.lt_succ_self _
    · exact Nat.lt_succ_of_lt (hd.placed hother)
  · rw [get?_directory_make] at hother
    split at hother
    · rename_i hname
      rw [← Option.some.inj hother, place_make_length, ← hname]
      rfl
    · rw [place_make_of_lt (hd.placed hother)]
      exact hd.named hother

/-- It holds what its name was seen to hold before: no records. -/
theorem Sound.collection_make (hd : Sound d) (hname : d.directory.get? name = none)
    (other : String) :
    (d.make name).toStore.database.collection other = d.toStore.database.collection other := by
  rw [collection_toStore, collection_toStore, get?_directory_make]
  split
  · rename_i hsame
    rw [← hsame, hname, Option.map_some, place_make_length]
    rfl
  · cases hother : d.directory.get? other with
    | none => rfl
    | some p => rw [Option.map_some, Option.map_some, place_make_of_lt (hd.placed hother)]

theorem Sound.extends_make (hd : Sound d) (hname : d.directory.get? name = none) :
    Extends d (d.make name) := by
  refine ⟨hd.make name, fun {other p} hother => ?_, fun other => ?_⟩
  · have hne : name ≠ other := fun hsame => by simp [← hsame, hname] at hother
    rw [get?_directory_make, if_neg hne, hother]
  · rw [hd.collection_make hname]
    exact .refl _

/-- **Asking for a collection** gives the handle of its place and changes no collection, whether
it is there already or has to be made. -/
theorem Sound.collection (hd : Sound d) (name : String) :
    Extends d (d.collection name).2 ∧
      ∃ p, (d.collection name).2.directory.get? name = some p ∧
        (d.collection name).1 = handle name p := by
  unfold SharedDatabase.collection
  cases hname : d.directory.get? name with
  | some p => exact ⟨.refl hd, p, hname, rfl⟩
  | none =>
    have hplace : (d.make name).directory.get? name = some d.places.length :=
      (get?_directory_make name d name).trans (if_pos rfl)
    exact ⟨hd.extends_make hname, d.places.length, hplace, rfl⟩

/-- Binding aliases one after the other asks for their collections. -/
theorem Sound.foldl_bind {b : RepositoryRegistry SharedDatabase × SharedDatabase} (hb : Sound b.2)
    (hh : Handles.Valid b.1.bindings b.2) (aliases : List String) :
    Extends b.2 (aliases.foldl bind b).2 ∧
      Handles.Valid (aliases.foldl bind b).1.bindings (aliases.foldl bind b).2 := by
  induction aliases generalizing b with
  | nil => exact ⟨.refl hb, hh⟩
  | cons a aliases ih =>
    obtain ⟨hextends, p, hp, hr⟩ := hb.collection a
    have hbound : Handles.Valid (bind b a).1.bindings (bind b a).2 := fun f hf => by
      rcases Fields.mem_insert hf with rfl | hf
      · exact ⟨p, hp, hr⟩
      · exact hh.mono hextends.kept f hf
    obtain ⟨hrest, hvalid⟩ := ih (b := bind b a) hextends.sound hbound
    exact ⟨hextends.trans hrest, hvalid⟩

/-- **A registry binds its aliases to the handles of their names**, and changes no collection. -/
theorem Sound.registryFor (hd : Sound d) (aliases : List String) :
    Extends d (d.registryFor aliases).2 ∧
      Handles.Valid (d.registryFor aliases).1.bindings (d.registryFor aliases).2 :=
  hd.foldl_bind (b := (.empty, d)) (List.forall_mem_nil _) aliases

/-! ### Sessions -/

/-- A database in which the entries of the collections stand in other places. What identifiers it
hands out from here on is left open. -/
structure Rearranged (d e : SharedDatabase) : Prop where
  directory : e.directory = d.directory
  length : e.places.length = d.places.length
  places : ∀ p, (d.place p).Rearranged (e.place p)

theorem Rearranged.refl (d : SharedDatabase) : d.Rearranged d := ⟨rfl, rfl, fun _ => .refl _⟩

theorem Rearranged.toStore (h : d.Rearranged e) : d.toStore.Rearranged e.toStore := fun name => by
  rw [collection_toStore, collection_toStore, h.directory]
  cases d.directory.get? name with
  | none => exact .refl _
  | some p => exact h.places p

theorem Sound.rearranged (hd : Sound d) (h : d.Rearranged e) : Sound e :=
  ⟨fun hname => h.length ▸ hd.placed (h.directory ▸ hname),
    fun hname => (h.places _).name.trans (hd.named (h.directory ▸ hname))⟩

/-- A session: from one database and the handles held there to another. Collections are asked for
one by one and for registries, whenever it may be; all handles that are given out are kept, and
every call is made through one of them. -/
inductive Session : SharedDatabase → Handles → List Noted → SharedDatabase → Handles → Prop
  | done {d e : SharedDatabase} {held : Handles} : d.Rearranged e → Session d held [] e held
  | collection {d e : SharedDatabase} {held last : Handles} {h : List Noted} (name : String) :
      Session (d.collection name).2 ((name, (d.collection name).1) :: held) h e last →
        Session d held h e last
  | registry {d e : SharedDatabase} {held last : Handles} {h : List Noted}
      (aliases : List String) :
      Session (d.registryFor aliases).2 ((d.registryFor aliases).1.bindings ++ held) h e last →
        Session d held h e last
  | call {d d' e : SharedDatabase} {held last : Handles} {h : List Noted} {name : String}
      {r : Repository SharedDatabase} (hr : (name, r) ∈ held) (c : LoggedCall) :
      d.Rearranged d' → Session (r.after c d') held h e last →
        Session d held (⟨name, d'.fresh, c, r.answer c d'⟩ :: h) e last

variable {held last : Handles} {h : List Noted}

/-- **Seen by name, a session is a session of the store**, in which every call is made on the
repository of the name that its handle was given out for. -/
theorem Session.refines (hs : Session d held h e last) (hd : Sound d) (hh : held.Valid d) :
    Sound e ∧ last.Valid e ∧ Store.Session d.toStore h e.toStore := by
  induction hs with
  | done hr =>
    have hkept := hr.directory
    exact ⟨hd.rearranged hr, hh.mono fun hname => hkept ▸ hname, .done hr.toStore⟩
  | @collection d e held last h name _ ih =>
    obtain ⟨hextends, p, hp, hr⟩ := hd.collection name
    obtain ⟨he, hlast, hstore⟩ := ih hextends.sound (hr ▸ (hh.mono hextends.kept).cons hp)
    exact ⟨he, hlast, hstore.of_rearranged hextends.store⟩
  | @registry d e held last h aliases _ ih =>
    obtain ⟨hextends, hbound⟩ := hd.registryFor aliases
    obtain ⟨he, hlast, hstore⟩ :=
      ih hextends.sound (List.forall_mem_append.2 ⟨hbound, hh.mono hextends.kept⟩)
    exact ⟨he, hlast, hstore.of_rearranged hextends.store⟩
  | @call d d' e held last h name r hmem c hr _ ih =>
    obtain ⟨p, hp, rfl⟩ := hh.exists_place hmem
    have hd' : Sound d' := hd.rearranged hr
    have hp' : d'.directory.get? name = some p := hr.directory ▸ hp
    have hkept : ((handle name p).after c d').directory = d.directory := by
      rw [after_handle]
      exact hr.directory
    obtain ⟨he, hlast, hstore⟩ :=
      ih (hd'.after hp' c) (hh.mono fun hname => hkept ▸ hname)
    have hafter : ((Store.repository name).after c d'.toStore).Rearranged
        ((handle name p).after c d').toStore := fun other => by
      rw [hd'.after_toStore hp']
      exact .refl _
    rw [answer_toStore hp']
    exact ⟨he, hlast, .call name c hr.toStore (hstore.of_rearranged hafter)⟩

/-- Any calls, with any identifiers generated for them, can be made through a handle. -/
theorem exists_session {r : Repository SharedDatabase} (hr : (name, r) ∈ held)
    (cs : List (String × LoggedCall)) (d : SharedDatabase) :
    ∃ h e, Session d held h e held ∧ Noted.asked h = cs ∧ ∀ n ∈ h, n.collection = name := by
  induction cs generalizing d with
  | nil => exact ⟨[], d, .done (.refl d), rfl, List.forall_mem_nil _⟩
  | cons a cs ih =>
    obtain ⟨fresh, c⟩ := a
    let d' : SharedDatabase := { d with supply := fun _ => fresh }
    obtain ⟨h, e, hs, hasked, hname⟩ := ih (r.after c d')
    have hr' : d.Rearranged d' := ⟨rfl, rfl, fun _ => .refl _⟩
    exact ⟨_, e, .call hr c hr' hs, congrArg ((fresh, c) :: ·) hasked,
      List.forall_mem_cons.2 ⟨rfl, hname⟩⟩

/-- The calls on one name are answered from its ledger alone, which also keeps what they leave. -/
theorem Session.respondAll (hs : Session d held h e last) (hd : Sound d) (hh : held.Valid d)
    (hstore : d.toStore.Sound) (name : String) :
    (d.ledger name).respondAll name (Noted.asked (Noted.on name h)) =
      (Noted.answers (Noted.on name h), e.ledger name) := by
  obtain ⟨-, -, hrefines⟩ := hs.refines hd hh
  have hrun := hrefines.respondAll hstore name
  rwa [hd.name_collection_toStore] at hrun

/-! ### Apart and together -/

/-- **Collections are apart, and handles of one name are together.** Take any database that a
session has led to, and any session from there on. All handles that were given out for a name, by
themselves or in registries, are one handle, and what is called through it is called on the
collection of the name. Of every single collection it is true that its ledger answers its own
calls as if they were all there is, and is what they leave; that there is a session of these calls
alone, with the same notes and the same ledger in the end; and that no session in which the same
is asked of it, whatever else goes on, notes or leaves anything different. -/
theorem collections_apart {supply : Nat → String} {d e : SharedDatabase} {held last : Handles}
    {before after : List Noted} (hbefore : Session (.start supply) [] before d held)
    (hafter : Session d held after e last) :
    (∀ name r r', (name, r) ∈ last → (name, r') ∈ last → r = r') ∧
      Store.Session d.toStore after e.toStore ∧
      ∀ name,
        (d.ledger name).respondAll name (Noted.asked (Noted.on name after)) =
            (Noted.answers (Noted.on name after), e.ledger name) ∧
          (∃ f kept, Session d held (Noted.on name after) f kept ∧
            f.ledger name = e.ledger name) ∧
          ∀ notes f kept, Session d held notes f kept →
            Noted.asked (Noted.on name notes) = Noted.asked (Noted.on name after) →
              Noted.on name notes = Noted.on name after ∧ f.ledger name = e.ledger name := by
  obtain ⟨hd, hh, hstart⟩ := hbefore.refines (.start supply) (List.forall_mem_nil _)
  have hstore : d.toStore.Sound := hstart.sound (Store.Sound.start supply)
  obtain ⟨-, hlast, hrefines⟩ := hafter.refines hd hh
  refine ⟨fun name r r' => hlast.unique, hrefines, fun name => ?_⟩
  have hrun := hafter.respondAll hd hh hstore name
  have hsame : ∀ notes f kept, Session d held notes f kept →
      Noted.asked (Noted.on name notes) = Noted.asked (Noted.on name after) →
        Noted.on name notes = Noted.on name after ∧ f.ledger name = e.ledger name := by
    intro notes f kept hnotes hasked
    have hrun' := hnotes.respondAll hd hh hstore name
    rw [hasked, hrun] at hrun'
    obtain ⟨hanswers, hledger⟩ := Prod.mk.inj hrun'
    exact ⟨Noted.on_eq_of_asked hasked hanswers.symm, hledger.symm⟩
  refine ⟨hrun, ?_, hsame⟩
  -- the calls of the name, made through a handle that is asked for on the spot
  obtain ⟨notes, f, hcalls, hasked, hnames⟩ := exists_session List.mem_cons_self
    (Noted.asked (Noted.on name after)) (d.collection name).2
  have halone : Session d held notes f _ := .collection name hcalls
  have hself : Noted.on name notes = notes := Noted.on_eq_self hnames
  obtain ⟨hnotes, hledger⟩ := hsame notes f _ halone (hself.symm ▸ hasked)
  exact ⟨f, _, hnotes ▸ hself.symm ▸ halone, hledger⟩

/-- The registry of a catalog of notes and tags is asked for, and then the notes by themselves. A
note and a tag are created through the registry. The note is found through the other handle, the
tag is deleted, and the notes are counted. -/
theorem collections_apart_notes :
    ∃ after e last,
      Session (.start fun _ => "n1") [] after e last ∧
        after.map Noted.collection = ["note", "tag", "note", "tag", "note"] ∧
        Noted.answers (Noted.on "note" after) =
          [ .created (.ok (.obj [("_id", .str "n1"), ("text", .str "a")])),
            .looked (.ok (some (.obj [("_id", .str "n1"), ("text", .str "a")]))),
            .counted (.ok 1) ] ∧
        e.ledger "note" = [("n1", .obj [("_id", .str "n1"), ("text", .str "a")])] ∧
        e.ledger "tag" = [] := by
  let catalog : Catalog := ⟨[.bare "note", .bare "tag"]⟩
  let d : SharedDatabase := .start fun _ => "n1"
  let g := d.registryForCatalog catalog
  let notes := g.2.collection "note"
  let held : Handles := ("note", notes.1) :: (g.1.bindings ++ [])
  have hdirect : ("note", notes.1) ∈ held := List.mem_cons_self
  have hnote : ("note", handle "note" 0) ∈ held := .tail _ (.head _)
  have htag : ("tag", handle "tag" 1) ∈ held := .tail _ (.tail _ (.head _))
  have hs : Session d [] _ _ held :=
    .registry catalog.aliases <| .collection "note" <|
      .call hnote (.create (.obj [("text", .str "a")])) (.refl _) <|
      .call htag (.create (.obj [("_id", .str "n1")])) (.refl _) <|
      .call hdirect (.findById "n1") (.refl _) <|
      .call htag (.deleteById "n1") (.refl _) <|
      .call hnote (.count .all) (.refl _) <| .done (.refl _)
  obtain ⟨-, -, hown⟩ := collections_apart (.done (.refl d)) hs
  have hstart : ∀ name, d.ledger name = [] := Store.ledger_start fun _ => "n1"
  have hnotes := (hown "note").1
  have htags := (hown "tag").1
  rw [hstart] at hnotes htags
  exact ⟨_, _, _, hs, rfl, (congrArg Prod.fst hnotes).symm, (congrArg Prod.snd hnotes).symm,
    (congrArg Prod.snd htags).symm⟩

end SharedDatabase

end EntityGraph
