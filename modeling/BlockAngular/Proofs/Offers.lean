import BlockAngular.Proofs.Decomposition.Images

/-! # Registries after any offers

A registration may be offered to a registry at any time. It is taken up unless its preimage is
registered already, so that the first offer of each preimage counts. Images are not guarded in
this way: one that is offered for two preimages is the image of both, and lives where it was
registered last. No two preimages share an image if no image was registered twice, and what is
said of an image agrees with what is said of its preimages if no image was registered for two
blocks.
-/

namespace BlockAngular

/-- The state that a piece of work leaves, whether it comes to its end or not. -/
def stateAfter {ε σ α : Type} (x : EStateM ε σ α) (s : σ) : σ :=
  match x s with
  | .ok _ t | .error _ t => t

namespace Registry

/-- A registry after an offer, which is taken up or refused. -/
def offer (r : Registry) (e : Registration) : Registry :=
  match r.add e.preimage e.image e.block with
  | .ok r' => r'
  | .error _ => r

/-- A registry after some offers. -/
def offerAll (r : Registry) (offers : List Registration) : Registry :=
  offers.foldl offer r

/-- A registry with some more registrations. -/
def extend (r : Registry) (entries : List Registration) : Registry :=
  ⟨r.registrations ++ entries,
    entries.foldl (fun owners e => Handle.put e.image e.block owners) r.owners⟩

/-- Registrations of different preimages that a registry does not have yet. -/
structure AreNew (r : Registry) (entries : List Registration) : Prop where
  absent : ∀ e ∈ entries, r.contains e.preimage = false
  nodup : (entries.map (·.preimage)).Nodup

/-- No two preimages share an image. -/
def IsInjective (r : Registry) : Prop :=
  ∀ a b image, r.image? a = some image → r.image? b = some image → a = b

/-- The image of a preimage lives in the block of the preimage. -/
def IsCoherent (r : Registry) : Prop :=
  ∀ preimage image block, r.image? preimage = some image → r.owner? preimage = some block →
    r.imageOwner? image = some block

/-- The images that are listed for a block are those of the preimages of the block. -/
def ListsImages (r : Registry) : Prop :=
  ∀ block image, image ∈ r.imagesOf block ↔
    ∃ preimage own, r.image? preimage = some image ∧ r.owner? preimage = some own ∧
      own.same block = true

variable {r : Registry} {e : Registration} {entries offers : List Registration}
  {preimage image : Handle} {block : Block}

@[simp] theorem extend_nil : r.extend [] = r := by
  simp [extend]

theorem extend_append (more : List Registration) :
    r.extend (entries ++ more) = (r.extend entries).extend more := by
  simp [extend]

theorem contains_extend : (r.extend entries).contains preimage = true ↔
    r.contains preimage = true ∨ preimage ∈ entries.map (·.preimage) := by
  simp only [contains_iff, extend, List.map_append, List.mem_append]

theorem find?_extend : (r.extend entries).find? preimage =
    (r.find? preimage).or (entries.find? fun e => e.preimage = preimage) :=
  List.find?_append ..

/-- What lives in an image is not changed by registrations with other images. -/
theorem imageOwner?_extend (others : image ∉ entries.map (·.image)) :
    (r.extend entries).imageOwner? image = r.imageOwner? image := by
  induction entries generalizing r with
  | nil => rw [extend_nil]
  | cons e entries ih =>
      rw [List.map_cons, List.mem_cons, not_or] at others
      rw [← List.singleton_append, extend_append, ih others.2]
      simp [imageOwner?, extend, Handle.lookup_put, others.1]

theorem Grown.extend (grown : r.Grown) (new : r.AreNew entries) : (r.extend entries).Grown where
  preimages_nodup := by
    rw [Registry.extend, List.map_append]
    refine grown.preimages_nodup.append new.nodup fun preimage old there => ?_
    obtain ⟨e, he, rfl⟩ := List.mem_map.mp there
    rw [← contains_iff, new.absent e he] at old
    cases old
  owners_eq := by simp only [Registry.extend, List.foldl_append, ← grown.owners_eq]

theorem add_of_contains (there : r.contains preimage = true) :
    r.add preimage image block = .error (.inconsistent (.registeredTwice preimage)) := by
  rw [add, if_pos there]

theorem add_of_new (new : r.contains preimage = false) :
    r.add preimage image block = .ok (r.extend [⟨preimage, image, block⟩]) := by
  simp [add, new, extend]

theorem eq_extend_of_add {r' : Registry} (h : r.add preimage image block = .ok r') :
    r' = r.extend [⟨preimage, image, block⟩] := by
  by_cases there : r.contains preimage = true
  · rw [add_of_contains there] at h
    cases h
  · rw [add_of_new (by simpa using there)] at h
    exact (Except.ok.inj h).symm

theorem offer_of_contains (there : r.contains e.preimage = true) : r.offer e = r := by
  rw [offer, add_of_contains there]

theorem offer_of_new (new : r.contains e.preimage = false) : r.offer e = r.extend [e] := by
  rw [offer, add_of_new new]

/-- Offers add the registrations that are new when they are offered. -/
theorem offerAll_eq (r : Registry) (offers : List Registration) :
    ∃ entries, r.offerAll offers = r.extend entries ∧ entries.Sublist offers ∧
      r.AreNew entries := by
  induction offers generalizing r with
  | nil => exact ⟨[], extend_nil.symm, .refl _, ⟨by simp, .nil⟩⟩
  | cons e offers ih =>
      rw [offerAll, List.foldl_cons, ← offerAll]
      by_cases there : r.contains e.preimage = true
      · rw [offer_of_contains there]
        obtain ⟨entries, made, taken, new⟩ := ih r
        exact ⟨entries, made, taken.cons e, new⟩
      · rw [Bool.not_eq_true] at there
        rw [offer_of_new there]
        obtain ⟨entries, made, taken, new⟩ := ih (r.extend [e])
        have absent (e' : Registration) (he' : e' ∈ entries) :
            r.contains e'.preimage = false ∧ e'.preimage ≠ e.preimage := by
          have outside := new.absent e' he'
          rw [← Bool.not_eq_true, contains_extend, not_or] at outside
          exact ⟨by simpa using outside.1, by simpa using outside.2⟩
        refine ⟨e :: entries, made.trans (extend_append _).symm, taken.cons_cons e, ?_, ?_⟩
        · exact List.forall_mem_cons.mpr ⟨there, fun e' he' => (absent e' he').1⟩
        · refine List.nodup_cons.mpr ⟨fun again => ?_, new.nodup⟩
          obtain ⟨e', he', same⟩ := List.mem_map.mp again
          exact (absent e' he').2 same

theorem find?_offer : (r.offer e).find? preimage =
    (r.find? preimage).or (if e.preimage = preimage then some e else none) := by
  by_cases there : r.contains e.preimage = true
  · rw [offer_of_contains there]
    by_cases own : e.preimage = preimage
    · obtain ⟨e', found⟩ := Option.isSome_iff_exists.mp (own ▸ there)
      rw [found, Option.some_or]
    · rw [if_neg own, Option.or_none]
  · rw [offer_of_new (by simpa using there), find?_extend]
    by_cases own : e.preimage = preimage <;> simp [own]

/-- The first offer of a preimage counts. -/
theorem find?_offerAll : (r.offerAll offers).find? preimage =
    (r.find? preimage).or (offers.find? fun e => e.preimage = preimage) := by
  induction offers generalizing r with
  | nil => simp [offerAll]
  | cons e offers ih =>
      rw [offerAll, List.foldl_cons, ← offerAll, ih, find?_offer, Option.or_assoc]
      by_cases own : e.preimage = preimage <;> simp [own]

theorem contains_offerAll_empty : (empty.offerAll offers).contains preimage = true ↔
    preimage ∈ offers.map (·.preimage) := by
  rw [contains, find?_offerAll]
  simp [find?, empty]

namespace Grown

variable (grown : r.Grown)

include grown

theorem owners_nodup : (r.owners.map (·.1)).Nodup := by
  rw [grown.owners_eq]
  generalize r.registrations = entries
  induction entries using List.reverseRecOn with
  | nil => exact .nil
  | append_singleton entries e ih =>
      rw [List.foldl_append]
      exact Handle.put_keys_nodup ih

/-- An image lives where it was registered last. -/
theorem imageOwner?_eq : r.imageOwner? image =
    (r.registrations.reverse.find? fun e => e.image = image).map (·.block) := by
  rw [imageOwner?, grown.owners_eq]
  generalize r.registrations = entries
  induction entries using List.reverseRecOn with
  | nil => rfl
  | append_singleton entries e ih =>
      rw [List.foldl_append, List.foldl_cons, List.foldl_nil, Handle.lookup_put, ih,
        List.reverse_append, List.reverse_singleton, List.singleton_append, List.find?_cons]
      by_cases own : e.image = image
      · simp [own]
      · simp [own, Ne.symm own]

theorem find?_iff : r.find? preimage = some e ↔ e ∈ r.registrations ∧ e.preimage = preimage :=
  find?_key_eq_some grown.preimages_nodup

theorem find?_of_mem (he : e ∈ r.registrations) : r.find? e.preimage = some e :=
  grown.find?_iff.mpr ⟨he, rfl⟩

theorem isInjective_iff : r.IsInjective ↔ (r.registrations.map (·.image)).Nodup := by
  constructor
  · intro injective
    refine List.Nodup.map_on ?_ (List.Nodup.of_map _ grown.preimages_nodup)
    intro e he e' he' same
    have preimages : e.preimage = e'.preimage :=
      injective _ _ e.image (by rw [image?, grown.find?_of_mem he]; rfl)
        (by rw [image?, grown.find?_of_mem he', same]; rfl)
    exact List.inj_on_of_nodup_map grown.preimages_nodup he he' preimages
  · intro images a b image ha hb
    exact (grown.faithful images).image?_injective ha hb

/-- What is said of images and of preimages agrees if images were registered for one block. -/
theorem isCoherent_iff : r.IsCoherent ↔ ∀ e ∈ r.registrations, ∀ e' ∈ r.registrations,
    e.image = e'.image → e.block = e'.block := by
  constructor
  · intro coherent e he e' he' same
    have own {e : Registration} (he : e ∈ r.registrations) :
        r.imageOwner? e.image = some e.block := by
      have found := grown.find?_of_mem he
      exact coherent e.preimage _ _ (by rw [image?, found]; rfl) (by rw [owner?, found]; rfl)
    exact Option.some.inj ((own he).symm.trans (same ▸ own he'))
  · intro agree preimage image block ha hb
    obtain ⟨e, found, rfl⟩ := Option.map_eq_some_iff.mp ha
    rw [owner?, found] at hb
    obtain rfl := Option.some.inj hb
    have he := (grown.find?_iff.mp found).1
    have there : (r.registrations.reverse.find? fun e' => e'.image = e.image).isSome = true := by
      simpa using ⟨e, he, rfl⟩
    obtain ⟨last, found'⟩ := Option.isSome_iff_exists.mp there
    have listed := List.mem_reverse.mp (List.mem_of_find?_eq_some found')
    have same : last.image = e.image := by simpa using List.find?_some found'
    rw [grown.imageOwner?_eq, found', Option.map_some, agree last listed e he same]

theorem mem_imagesOf : image ∈ r.imagesOf block ↔
    ∃ own, r.imageOwner? image = some own ∧ own.same block = true := by
  simp only [imagesOf, imageOwner?, lookup_eq_some grown.owners_nodup]
  simp

theorem imagesOf_nodup (block : Block) : (r.imagesOf block).Nodup :=
  List.Nodup.sublist (List.filter_sublist.map _) grown.owners_nodup

theorem listsImages (coherent : r.IsCoherent) : r.ListsImages := by
  intro block image
  rw [grown.mem_imagesOf]
  constructor
  · rintro ⟨own, owned, same⟩
    rw [grown.imageOwner?_eq] at owned
    obtain ⟨e, found, rfl⟩ := Option.map_eq_some_iff.mp owned
    have he := List.mem_reverse.mp (List.mem_of_find?_eq_some found)
    obtain rfl : e.image = image := by simpa using List.find?_some found
    have found := grown.find?_of_mem he
    exact ⟨e.preimage, e.block, by rw [image?, found]; rfl, by rw [owner?, found]; rfl, same⟩
  · rintro ⟨preimage, own, ha, hb, same⟩
    exact ⟨own, coherent preimage image own ha hb, same⟩

end Grown

end Registry

namespace Staging

/-- A staging after some offers, of which some may be refused. -/
def offered (offers : List Registration) (s : Staging) : Staging :=
  offers.foldl (fun s e => stateAfter (register e.preimage e.image e.block) s) s

theorem register_eq (preimage image : Handle) (block : Block) (s : Staging) :
    register preimage image block s =
      match s.registry.add preimage image block with
      | .ok registry => .ok () { s with registry := registry }
      | .error e => .error e s := by
  show (Stage.ofExcept (s.registry.add preimage image block) >>= fun registry =>
    set { s with registry := registry }) s = _
  cases s.registry.add preimage image block <;> rfl

/-- To register is to offer: nothing else changes, and a refusal changes nothing. -/
theorem after_register (e : Registration) (s : Staging) :
    stateAfter (register e.preimage e.image e.block) s =
      { s with registry := s.registry.offer e } := by
  rw [stateAfter, register_eq, Registry.offer]
  cases s.registry.add e.preimage e.image e.block <;> rfl

theorem offered_eq (offers : List Registration) (s : Staging) :
    offered offers s = { s with registry := s.registry.offerAll offers } := by
  induction offers generalizing s with
  | nil => rfl
  | cons e offers ih => rw [offered, List.foldl_cons, ← offered, ih, after_register]; rfl

/-- What a fresh registry has become after any offers. Another offer of a preimage is refused, and
changes nothing; the first one is what the registry tells of the preimage, and the last one that
was registered with an image is what it tells of the image. Preimages may share an image, namely
if it was registered twice. What is told of images is what is told of their preimages if, and only
if, no image was registered for two blocks. -/
theorem registers_first_offers (compact target : Model) (offers : List Registration) :
    ∃ registry, offered offers ⟨compact, target, .empty⟩ = ⟨compact, target, registry⟩ ∧
      (∀ e : Registration, e.preimage ∈ offers.map (·.preimage) →
        register e.preimage e.image e.block ⟨compact, target, registry⟩ =
          .error (.inconsistent (.registeredTwice e.preimage)) ⟨compact, target, registry⟩) ∧
      registry.registrations.Sublist offers ∧
      (∀ preimage, registry.find? preimage = offers.find? fun e => e.preimage = preimage) ∧
      (∀ image, registry.imageOwner? image =
        (registry.registrations.reverse.find? fun e => e.image = image).map (·.block)) ∧
      (registry.IsInjective ↔ (registry.registrations.map (·.image)).Nodup) ∧
      (registry.IsCoherent ↔ ∀ e ∈ registry.registrations, ∀ e' ∈ registry.registrations,
        e.image = e'.image → e.block = e'.block) ∧
      (registry.IsCoherent → registry.ListsImages) ∧
      ∀ block, (registry.imagesOf block).Nodup := by
  obtain ⟨entries, made, taken, new⟩ := Registry.offerAll_eq .empty offers
  have grown := made ▸ Registry.grown_empty.extend new
  refine ⟨Registry.empty.offerAll offers, offered_eq _ _, fun e there => ?_, ?_, fun _ => ?_,
    fun _ => grown.imageOwner?_eq, grown.isInjective_iff, grown.isCoherent_iff,
    grown.listsImages, grown.imagesOf_nodup⟩
  · rw [register_eq, Registry.add_of_contains (Registry.contains_offerAll_empty.mpr there)]
  · rwa [made]
  · rw [Registry.find?_offerAll]
    rfl

/-- Two variables are registered for one image, once for the master and once for a subproblem. -/
def sharedImage : List Registration :=
  [⟨⟨0, "x", 0⟩, ⟨1, "z", 0⟩, .master⟩, ⟨⟨0, "y", 0⟩, ⟨1, "z", 0⟩, .subproblem (.int 1)⟩]

/-- Nothing of it is refused. The image is owned by the master if its first preimage is asked, but
it is not listed for the master. -/
theorem sharedImage_splits :
    ∃ s, offered sharedImage ⟨.empty 0 "model", .empty 1 "master", .empty⟩ = s ∧
      s.registry.registrations = sharedImage ∧ ¬s.registry.IsInjective ∧
      ¬s.registry.IsCoherent ∧ ¬s.registry.ListsImages := by
  refine ⟨_, rfl, rfl, fun injective => ?_, fun coherent => ?_, fun lists => ?_⟩
  · have same := injective ⟨0, "x", 0⟩ ⟨0, "y", 0⟩ ⟨1, "z", 0⟩ rfl rfl
    exact absurd same (by decide)
  · have owner := coherent ⟨0, "x", 0⟩ ⟨1, "z", 0⟩ .master rfl rfl
    cases owner
  · have listed := (lists .master ⟨1, "z", 0⟩).mpr ⟨⟨0, "x", 0⟩, .master, rfl, rfl, rfl⟩
    cases listed

end Staging

end BlockAngular
