import BlockAngular.Registry
import Mathlib.Data.List.Induction
import Mathlib.Data.List.Nodup

/-! # Registries are tables both ways

Registering refuses a preimage that is registered already, so that preimages differ. Where
the images differ as well, the blocks by image and the registrations say the same, and
every question about a preimage or an image is answered by its one registration.
-/

namespace BlockAngular

/-- Looking for the one entry with a key. -/
theorem find?_key_eq_some {α κ : Type} [DecidableEq κ] {key : α → κ} {entries : List α}
    (nodup : (entries.map key).Nodup) {k : κ} {e : α} :
    entries.find? (fun e => key e = k) = some e ↔ e ∈ entries ∧ key e = k := by
  constructor
  · intro found
    exact ⟨List.mem_of_find?_eq_some found, by simpa using List.find?_some found⟩
  · rintro ⟨he, rfl⟩
    have some_found : (entries.find? fun e' => key e' = key e).isSome = true := by
      simpa using ⟨e, he, rfl⟩
    obtain ⟨e', found⟩ := Option.isSome_iff_exists.mp some_found
    have same : key e' = key e := by simpa using List.find?_some found
    rw [found, List.inj_on_of_nodup_map nodup (List.mem_of_find?_eq_some found) he same]

theorem lookup_eq_some {α β : Type} [DecidableEq α] {entries : List (α × β)}
    (nodup : (entries.map (·.1)).Nodup) {a : α} {b : β} :
    entries.lookup a = some b ↔ (a, b) ∈ entries := by
  induction entries with
  | nil => simp
  | cons entry rest ih =>
      obtain ⟨a', b'⟩ := entry
      simp only [List.map_cons, List.nodup_cons] at nodup
      rw [List.lookup_cons]
      by_cases equal : a = a'
      · subst equal
        have elsewhere : (a, b) ∉ rest := fun he =>
          nodup.1 (List.mem_map_of_mem (f := (·.1)) he)
        simp [elsewhere, eq_comm]
      · have other : (a == a') = false := by simpa using equal
        simp [other, equal, ih nodup.2]

theorem lookup_of_absent {α β : Type} [DecidableEq α] {entries : List (α × β)} {a : α}
    (absent : a ∉ entries.map (·.1)) : entries.lookup a = none :=
  List.lookup_eq_none_iff.mpr fun e he => by
    simpa using fun same => absent (List.mem_map.mpr ⟨e, he, same.symm⟩)

namespace Handle

section Entries

variable {α : Type} {h k : Handle} {a start : α} {f : α → α} {table : List (Handle × α)}

theorem change_keys : (change h start f table).map (·.1) =
    if h ∈ table.map (·.1) then table.map (·.1) else table.map (·.1) ++ [h] := by
  induction table with
  | nil => rfl
  | cons entry rest ih =>
      obtain ⟨own, a⟩ := entry
      by_cases equal : own = h
      · simp [change, equal]
      · simp only [change, equal, if_false, List.map_cons, ih, List.mem_cons, Ne.symm equal,
          false_or]
        split <;> rfl

theorem change_keys_nodup (nodup : (table.map (·.1)).Nodup) :
    ((change h start f table).map (·.1)).Nodup := by
  rw [change_keys]
  split
  · exact nodup
  · rename_i new
    exact nodup.append (List.nodup_singleton h) (by simpa using new)

theorem lookup_change : (change h start f table).lookup k =
    if k = h then some (f ((table.lookup h).getD start)) else table.lookup k := by
  induction table with
  | nil =>
      by_cases equal : k = h
      · simp [change, equal]
      · have other : (k == h) = false := by simpa using equal
        simp [change, List.lookup_cons, equal, other]
  | cons entry rest ih =>
      obtain ⟨own, a⟩ := entry
      by_cases equal : own = h
      · subst equal
        by_cases same : k = own
        · simp [change, same]
        · have other : (k == own) = false := by simpa using same
          simp [change, List.lookup_cons, same, other]
      · have apart : (h == own) = false := by simpa using Ne.symm equal
        by_cases same : k = own
        · simp [change, same, equal]
        · have other : (k == own) = false := by simpa using same
          simp [change, List.lookup_cons, equal, apart, other, ih]

theorem put_eq_change : put h a table = change h a (fun _ => a) table := by
  induction table with
  | nil => rfl
  | cons entry rest ih =>
      obtain ⟨own, b⟩ := entry
      by_cases equal : own = h <;> simp [put, change, equal, ih]

theorem lookup_put : (put h a table).lookup k = if k = h then some a else table.lookup k := by
  rw [put_eq_change, lookup_change]

theorem put_keys : (put h a table).map (·.1) = insertNew h (table.map (·.1)) := by
  rw [put_eq_change, change_keys, insertNew]

theorem put_keys_nodup (nodup : (table.map (·.1)).Nodup) : ((put h a table).map (·.1)).Nodup := by
  rw [put_eq_change]
  exact change_keys_nodup nodup

end Entries

theorem put_of_absent {α : Type} {h : Handle} {a : α} {table : List (Handle × α)}
    (absent : h ∉ table.map (·.1)) : put h a table = table ++ [(h, a)] := by
  induction table with
  | nil => rfl
  | cons entry rest ih =>
      obtain ⟨k, b⟩ := entry
      simp only [List.map_cons, List.mem_cons, not_or] at absent
      simp [put, Ne.symm absent.1, ih absent.2]

/-- Entries of different handles are put into a table one after the other. -/
theorem foldl_put {α β : Type} {entries : List β} {handle : β → Handle} (content : β → α)
    (nodup : (entries.map handle).Nodup) :
    entries.foldl (fun table e => put (handle e) (content e) table) [] =
      entries.map fun e => (handle e, content e) := by
  induction entries using List.reverseRecOn with
  | nil => rfl
  | append_singleton entries e ih =>
      rw [List.map_append] at nodup
      have others := List.nodup_append.mp nodup
      simp only [List.foldl_append, List.foldl_cons, List.foldl_nil, ih others.1]
      have absent : handle e ∉ (entries.map fun e => (handle e, content e)).map (·.1) := by
        rw [List.map_map]
        exact fun he => others.2.2 (handle e) he (handle e) (by simp) rfl
      simp [put_of_absent absent]

end Handle

namespace Registry

/-- A registry as registering makes it. -/
structure Grown (r : Registry) : Prop where
  preimages_nodup : (r.registrations.map (·.preimage)).Nodup
  owners_eq : r.owners =
    r.registrations.foldl (fun owners e => Handle.put e.image e.block owners) []

theorem grown_empty : Grown empty :=
  ⟨.nil, rfl⟩

theorem contains_iff {r : Registry} {preimage : Handle} :
    r.contains preimage = true ↔ preimage ∈ r.registrations.map (·.preimage) := by
  simp [contains, find?]

theorem imageOwner_ok {r : Registry} {image : Handle} {block : Block} :
    r.imageOwner image = .ok block ↔ r.imageOwner? image = some block := by
  unfold imageOwner
  cases r.imageOwner? image <;> simp

/-- What some registrations, one after the other, make of a registry. -/
structure Extends (entries : List Registration) (r r' : Registry) : Prop where
  registrations : r'.registrations = r.registrations ++ entries
  grown : r.Grown → r'.Grown

theorem Extends.refl (r : Registry) : Extends [] r r :=
  ⟨by simp, id⟩

theorem Extends.trans {entries entries' : List Registration} {r s t : Registry}
    (first : Extends entries r s) (second : Extends entries' s t) :
    Extends (entries ++ entries') r t :=
  ⟨by rw [second.registrations, first.registrations, List.append_assoc],
    second.grown ∘ first.grown⟩

/-- What is registered from the beginning makes the registry. -/
theorem Extends.unique {entries : List Registration} {r r' : Registry}
    (h : Extends entries .empty r) (h' : Extends entries .empty r') : r' = r := by
  have listed := h'.registrations.trans h.registrations.symm
  have owners := (h'.grown grown_empty).owners_eq
  rw [listed, ← (h.grown grown_empty).owners_eq] at owners
  obtain ⟨_, _⟩ := r
  obtain ⟨_, _⟩ := r'
  simp only at listed owners
  rw [listed, owners]

/-- Registering adds one registration, and refuses a preimage that has one. -/
theorem add_ok {r r' : Registry} {preimage image : Handle} {block : Block}
    (h : r.add preimage image block = .ok r') : Extends [⟨preimage, image, block⟩] r r' := by
  simp only [add] at h
  split at h
  · cases h
  · rename_i new
    obtain rfl := Except.ok.inj h
    refine ⟨rfl, fun grown => ⟨?_, ?_⟩⟩
    · rw [List.map_append]
      refine List.Nodup.append grown.preimages_nodup (List.nodup_singleton _) ?_
      rw [contains_iff] at new
      simpa using new
    · simp [grown.owners_eq]

/-- A registry whose images differ as its preimages do. -/
structure Faithful (r : Registry) : Prop where
  preimages_nodup : (r.registrations.map (·.preimage)).Nodup
  images_nodup : (r.registrations.map (·.image)).Nodup
  owners_eq : r.owners = r.registrations.map fun e => (e.image, e.block)

theorem Grown.faithful {r : Registry} (grown : r.Grown)
    (images : (r.registrations.map (·.image)).Nodup) : r.Faithful :=
  ⟨grown.preimages_nodup, images, grown.owners_eq.trans (Handle.foldl_put (·.block) images)⟩

namespace Faithful

variable {r : Registry}

theorem find?_iff (h : r.Faithful) {preimage : Handle} {e : Registration} :
    r.find? preimage = some e ↔ e ∈ r.registrations ∧ e.preimage = preimage :=
  find?_key_eq_some h.preimages_nodup

theorem image?_iff (h : r.Faithful) {preimage image : Handle} :
    r.image? preimage = some image ↔
      ∃ e ∈ r.registrations, e.preimage = preimage ∧ e.image = image := by
  simp only [image?, Option.map_eq_some_iff, h.find?_iff, and_assoc]

theorem owner?_iff (h : r.Faithful) {preimage : Handle} {block : Block} :
    r.owner? preimage = some block ↔
      ∃ e ∈ r.registrations, e.preimage = preimage ∧ e.block = block := by
  simp only [owner?, Option.map_eq_some_iff, h.find?_iff, and_assoc]

theorem preimage?_iff (h : r.Faithful) {preimage image : Handle} :
    r.preimage? image = some preimage ↔
      ∃ e ∈ r.registrations, e.image = image ∧ e.preimage = preimage := by
  simp only [preimage?, Option.map_eq_some_iff, find?_key_eq_some h.images_nodup, and_assoc]

theorem imageOwner?_iff (h : r.Faithful) {image : Handle} {block : Block} :
    r.imageOwner? image = some block ↔
      ∃ e ∈ r.registrations, e.image = image ∧ e.block = block := by
  have images : (r.owners.map (·.1)).Nodup := by
    rw [h.owners_eq, List.map_map]
    exact h.images_nodup
  rw [imageOwner?, lookup_eq_some images, h.owners_eq]
  simp [Prod.ext_iff]

/-- The images in a block are those registered for it, in the order of registration. -/
theorem imagesOf_eq (h : r.Faithful) (block : Block) :
    r.imagesOf block = (r.registrations.filter fun e => e.block.same block).map (·.image) := by
  rw [imagesOf, h.owners_eq, List.filter_map, List.map_map]
  rfl

/-- No two preimages share an image. -/
theorem image?_injective (h : r.Faithful) {a b image : Handle} (ha : r.image? a = some image)
    (hb : r.image? b = some image) : a = b := by
  obtain ⟨e, he, rfl, equal⟩ := h.image?_iff.mp ha
  obtain ⟨e', he', rfl, equal'⟩ := h.image?_iff.mp hb
  rw [List.inj_on_of_nodup_map h.images_nodup he he' (equal.trans equal'.symm)]

theorem preimage?_image? (h : r.Faithful) {preimage image : Handle} :
    r.preimage? image = some preimage ↔ r.image? preimage = some image := by
  rw [h.preimage?_iff, h.image?_iff]
  simp only [and_comm]

end Faithful

end Registry

end BlockAngular
