import BlockAngular.Proofs.Invariant
import BlockAngular.Proofs.Offers
import BlockAngular.Workbench.Images

/-! # What a frozen registry shows

To register images by hand is to offer them to a registry, whether one at a time or by slices, and
whether the work comes to its end or not. To freeze a registry does not end this: what is shown of
it are the tables that go on to be registered in. So the images that it had stay what they were,
but it is a snapshot only as long as nothing new is registered.
-/

namespace BlockAngular

open Stage (Keeps)

theorem Stage.Keeps.after {σ α : Type} {inv : σ → Prop} {x : Stage σ α} {s : σ} (h : Keeps inv x)
    (hs : inv s) : inv (stateAfter x s) := by
  unfold stateAfter
  cases made : x s with
  | ok a t => exact (h.ok hs made).1
  | error e t => exact h.error hs made

namespace Staging

/-- A staging whose registry is what offers made of another one. -/
def ComesFrom (base : Registry) (s : Staging) : Prop :=
  ∃ offers, s.registry = base.offerAll offers

variable {base : Registry} {block : Block} {name : String}

theorem comesFrom_self (base : Registry) (compact target : Model) :
    ComesFrom base ⟨compact, target, base⟩ :=
  ⟨[], rfl⟩

theorem preimage_keeps (index : List Value) : Keeps (ComesFrom base) (preimage name index) := by
  constructor
  · intro s h t hs made
    unfold preimage at made
    split at made <;> cases made
    exact ⟨hs, trivial⟩
  · intro s e t hs failed
    unfold preimage at failed
    split at failed <;> cases failed
    exact hs

theorem onTarget_keeps {α : Type} (stage : Stage Model α) :
    Keeps (ComesFrom base) (onTarget stage) := by
  constructor
  · intro s a t hs made
    unfold onTarget at made
    split at made <;> cases made
    exact ⟨hs, trivial⟩
  · intro s e t hs failed
    unfold onTarget at failed
    split at failed <;> cases failed
    exact hs

/-- To register an image is to offer it. -/
theorem register_keeps (preimage image : Handle) :
    Keeps (ComesFrom base) (register preimage image block) := by
  have after (s : Staging) (hs : s.ComesFrom base) :
      (stateAfter (register preimage image block) s).ComesFrom base := by
    obtain ⟨offers, made⟩ := hs
    rw [after_register ⟨preimage, image, block⟩, made]
    exact ⟨offers ++ [⟨preimage, image, block⟩], by simp [Registry.offerAll]⟩
  constructor
  · intro s u t hs made
    have there := after s hs
    rw [stateAfter, made] at there
    exact ⟨there, trivial⟩
  · intro s e t hs failed
    have there := after s hs
    rwa [stateAfter, failed] at there

end Staging

open Staging (ComesFrom)

variable {base : Registry}

theorem registerVariable_keeps (block : Block) (name : String) (index : List Value)
    (position : Nat) : Keeps (ComesFrom base) (registerVariable block name index position) := by
  refine .bind (Staging.preimage_keeps index) fun _ _ => .bind .get fun s hs => ?_
  refine .bind .ofFault fun _ _ => .bind .ofFault fun _ _ => .bind (.set hs) fun _ _ => ?_
  exact .bind (Staging.register_keeps _ _) fun _ _ => .pure trivial

theorem registerVariables_keeps (block : Block) (slice : Slice) :
    Keeps (ComesFrom base) (registerVariables block slice) := by
  refine .bind (.mapM fun entry _ => ?_) fun _ _ => .pure trivial
  refine .bind (Staging.onTarget_keeps _) fun _ _ => .bind (.mapM fun _ _ => ?_) fun _ _ =>
    .pure trivial
  exact registerVariable_keeps ..

theorem transit_keeps (r : Expression.Reading) (vars : Registry) (block : Block) (name : String)
    (index : List Value) : Keeps (ComesFrom base) (transit r vars block name index) := by
  refine .bind (Staging.preimage_keeps index) fun _ _ => .bind .get fun _ _ => ?_
  refine .bind .ofFault fun _ _ => ?_
  split
  · exact .bind (p := fun _ => False) .throw fun _ never => never.elim
  · refine .bind .ofExcept fun _ _ => .bind .ofExcept fun _ _ => .bind .ofFault fun _ _ => ?_
    exact .pure trivial

theorem registerConstraints_keeps (r : Expression.Reading) (vars : Registry) (block : Block)
    (slice : Slice) : Keeps (ComesFrom base) (registerConstraints r vars block slice) := by
  refine .bind (.mapM fun entry _ => ?_) fun _ _ => .pure trivial
  refine .bind (.mapM fun _ _ => transit_keeps ..) fun _ _ => ?_
  refine .bind (Staging.onTarget_keeps _) fun _ _ => .mapM fun _ _ => ?_
  exact .bind .get fun _ _ => .bind (Staging.register_keeps _ _) fun _ _ => .pure trivial

/-- What is shown of the images of a kind. -/
def Workbench.shown (b : Workbench) : Registry.Kind → Registry
  | .vars => b.vars
  | .constraints => b.constraints

@[simp] theorem Workbench.put_shown (m : Model) (b : Workbench) (kind : Registry.Kind) :
    (b.put m).shown kind = b.shown kind := by
  cases kind <;> rfl

/-- What work that registers images may change of what is shown. -/
structure Workbench.Grows (b b' : Workbench) : Prop where
  frozen : b'.frozen = b.frozen
  shown : ∀ kind, ∃ offers, b'.shown kind = (b.shown kind).offerAll offers

namespace Workbench.Grows

variable {b b' b'' : Workbench}

theorem of_offers (frozen : b'.frozen = b.frozen)
    (vars : ∃ offers, b'.vars = b.vars.offerAll offers)
    (constraints : ∃ offers, b'.constraints = b.constraints.offerAll offers) : b.Grows b' := by
  refine ⟨frozen, fun kind => ?_⟩
  cases kind with
  | vars => exact vars
  | constraints => exact constraints

theorem refl (b : Workbench) : b.Grows b :=
  .of_offers rfl ⟨[], rfl⟩ ⟨[], rfl⟩

theorem trans (first : b.Grows b') (second : b'.Grows b'') : b.Grows b'' := by
  refine ⟨second.frozen.trans first.frozen, fun kind => ?_⟩
  obtain ⟨offers, made⟩ := first.shown kind
  obtain ⟨offers', made'⟩ := second.shown kind
  exact ⟨offers ++ offers', by rw [made', made, Registry.offerAll, Registry.offerAll,
    Registry.offerAll, List.foldl_append]⟩

end Workbench.Grows

theorem stateAfter_bind {ε σ α β : Type} (x : EStateM ε σ α) (f : α → EStateM ε σ β) (s : σ) :
    stateAfter (x >>= f) s =
      match x s with
      | .ok a t => stateAfter (f a) t
      | .error _ t => t := by
  show stateAfter (EStateM.bind x f) s = _
  cases made : x s <;> simp only [stateAfter, EStateM.bind, made]

namespace Work

variable {α β : Type} {x : Work α} {f : α → Work β} {b : Workbench}

/-- Work that changes nothing. -/
def Reads (x : Work α) : Prop :=
  ∀ b, stateAfter x b = b

theorem Reads.pure (a : α) : Reads (pure a) := fun _ => rfl

theorem Reads.throw (e : Refusal) : Reads (throw e : Work α) := fun _ => rfl

theorem Reads.get : Reads get := fun _ => rfl

theorem Reads.bind (first : Reads x) (rest : ∀ a, Reads (f a)) : Reads (x >>= f) := by
  intro b
  have same := first b
  rw [stateAfter_bind]
  cases made : x b <;> rw [stateAfter, made] at same
  · exact same ▸ rest _ _
  · exact same

theorem ofExcept_reads (r : Except Error α) : Reads (ofExcept r) := by
  cases r
  · exact .throw _
  · exact .pure _

theorem target_reads (name : String) : Reads (target name) := by
  refine .bind .get fun b => ?_
  split
  · exact .pure _
  · exact .throw _

theorem result_reads : Reads result := by
  refine .bind .get fun b => ?_
  split
  · exact .pure _
  · exact .throw _

theorem mapping_reads : Reads mapping := by
  refine .bind .get fun b => ?_
  split
  · exact .pure _
  · exact .pure _
  · exact .throw _

theorem model_reads (place : Place) : Reads (model place) := by
  cases place with
  | compact => exact .bind .get fun _ => .pure _
  | target name => exact .bind (target_reads name) fun _ => .pure _
  | result block =>
      cases block with
      | master => exact .bind result_reads fun _ => .pure _
      | subproblem id =>
          exact .bind (.bind result_reads fun _ => ofExcept_reads _) fun _ => .pure _

theorem grows_bind (first : b.Grows (stateAfter x b))
    (rest : ∀ a b', x b = .ok a b' → b'.Grows (stateAfter (f a) b')) :
    b.Grows (stateAfter (x >>= f) b) := by
  rw [stateAfter_bind]
  cases made : x b with
  | ok a b' =>
      rw [stateAfter, made] at first
      exact first.trans (rest a b' made)
  | error e b' => rwa [stateAfter, made] at first

theorem Reads.grows (reads : Reads x) (b : Workbench) : b.Grows (stateAfter x b) := by
  rw [reads]
  exact .refl b

theorem onPart_after {σ : Type} (stage : Stage σ α) (part : σ) (keep : σ → Workbench → Workbench)
    (b : Workbench) : stateAfter (onPart stage part keep) b = keep (stateAfter stage part) b := by
  unfold onPart
  cases made : stage part <;> simp only [stateAfter, made] <;> rfl

theorem ofExcept_ok {r : Except Error α} {a : α} {b' : Workbench} :
    ofExcept r b = .ok a b' ↔ r = .ok a ∧ b = b' := by
  cases r with
  | ok value =>
      show EStateM.Result.ok value b = .ok a b' ↔ _
      simp
  | error e =>
      show EStateM.Result.error (Refusal.error e) b = .ok a b' ↔ _
      simp

/-- To look for an element may change the model that it is in, and nothing else. -/
theorem reach_after (place : Place) (key : Key) (b : Workbench) :
    stateAfter (reach place key) b = b ∨ ∃ m, stateAfter (reach place key) b = b.put m := by
  have same := model_reads place b
  show stateAfter (model place >>= _) b = b ∨ ∃ m, stateAfter (model place >>= _) b = b.put m
  rw [stateAfter_bind]
  cases found : model place b with
  | ok m b' =>
      rw [stateAfter, found] at same
      obtain rfl : b' = b := same
      exact .inr ⟨_, onPart_after ..⟩
  | error e b' =>
      rw [stateAfter, found] at same
      exact .inl same

theorem reach_grows (place : Place) (key : Key) (b : Workbench) :
    b.Grows (stateAfter (reach place key) b) := by
  obtain same | ⟨m, same⟩ := reach_after place key b
  · rw [same]
    exact .refl b
  · rw [same]
    exact ⟨rfl, fun kind => ⟨[], Workbench.put_shown m b kind⟩⟩

theorem reach_shown {place : Place} {key : Key} {b b' : Workbench} {h : Handle}
    (found : reach place key b = .ok h b') (kind : Registry.Kind) :
    b'.shown kind = b.shown kind := by
  have after := reach_after place key b
  rw [stateAfter, found] at after
  obtain rfl | ⟨m, rfl⟩ := after
  · rfl
  · exact Workbench.put_shown m b kind

theorem grows_get {f : Workbench → Work β} (rest : b.Grows (stateAfter (f b) b)) :
    b.Grows (stateAfter (get >>= f) b) := rest

/-- An image is offered, if it and its preimage are there. -/
theorem addImage_grows (kind : Registry.Kind) (preimage : Key) (place : Place) (image : Key)
    (block : Block) (b : Workbench) :
    b.Grows (stateAfter (addImage kind preimage place image block) b) := by
  refine grows_bind (reach_grows ..) fun h b _ => grows_bind (reach_grows ..) fun i b _ =>
    grows_get ?_
  have offered {r r' : Registry} (added : r.add h i block = .ok r') :
      ∃ offers, r' = r.offerAll offers :=
    ⟨[⟨h, i, block⟩], by simp [Registry.offerAll, Registry.offer, added]⟩
  cases kind with
  | vars =>
      cases added : b.vars.add h i block with
      | ok registry => exact .of_offers rfl (offered added) ⟨[], rfl⟩
      | error => exact .refl b
  | constraints =>
      cases added : b.constraints.add h i block with
      | ok registry => exact .of_offers rfl ⟨[], rfl⟩ (offered added)
      | error => exact .refl b

/-- An image that is added is registered for the preimage that is found. -/
theorem addImage_ok {kind : Registry.Kind} {preimage : Key} {place : Place} {image : Key}
    {block : Block} {b b' : Workbench}
    (h : addImage kind preimage place image block b = .ok () b') :
    ∃ p found i, reach .compact preimage b = .ok p found ∧
      (b.shown kind).add p i block = .ok (b'.shown kind) := by
  unfold addImage at h
  obtain ⟨p, found, reached, h⟩ := Stage.bind_ok.mp h
  obtain ⟨i, found', reached', h⟩ := Stage.bind_ok.mp h
  refine ⟨p, found, i, reached, ?_⟩
  rw [← reach_shown reached kind, ← reach_shown reached' kind]
  obtain ⟨b, same, got, h⟩ := Stage.bind_ok.mp h
  cases got
  cases kind with
  | vars | constraints =>
      obtain ⟨registry, b, added, made⟩ := Stage.bind_ok.mp h
      obtain ⟨taken, rfl⟩ := ofExcept_ok.mp added
      cases made
      exact taken

theorem registerVariables_grows (name : String) (block : Block) (slice : Slice) (b : Workbench) :
    b.Grows (stateAfter (registerVariables name block slice) b) := by
  refine grows_bind ((target_reads name).grows b) fun t b _ => grows_get ?_
  refine grows_bind ?_ fun pending b _ => .of_offers rfl ⟨[], rfl⟩ ⟨[], rfl⟩
  rw [onPart_after]
  exact .of_offers rfl ((registerVariables_keeps block slice).after
    (Staging.comesFrom_self b.vars b.compact t.model)) ⟨[], rfl⟩

theorem registerConstraints_grows (name : String) (block : Block) (slice : Slice) (b : Workbench) :
    b.Grows (stateAfter (registerConstraints name block slice) b) := by
  refine grows_bind ((target_reads name).grows b) fun t b _ =>
    grows_bind (mapping_reads.grows b) fun vars b _ => grows_get ?_
  refine grows_bind ?_ fun transfers b _ => .of_offers rfl ⟨[], rfl⟩ ⟨[], rfl⟩
  rw [onPart_after]
  exact .of_offers rfl ⟨[], rfl⟩ ((registerConstraints_keeps b.world.reading vars block slice).after
    (Staging.comesFrom_self b.constraints b.compact t.model))

end Work

/-- Work that registers images by hand, one of them or a slice. -/
inductive Registering where
  | one (kind : Registry.Kind) (preimage : Key) (place : Place) (image : Key) (block : Block)
  | varSlice (target : String) (block : Block) (slice : Slice)
  | constraintSlice (target : String) (block : Block) (slice : Slice)

namespace Registering

/-- The workbench after some work. What is refused of it leaves what it had done. -/
def perform (b : Workbench) : Registering → Workbench
  | .one kind preimage place image block =>
    stateAfter (Work.addImage kind preimage place image block) b
  | .varSlice target block slice => stateAfter (Work.registerVariables target block slice) b
  | .constraintSlice target block slice =>
    stateAfter (Work.registerConstraints target block slice) b

theorem perform_grows (b : Workbench) (work : Registering) : b.Grows (work.perform b) := by
  cases work with
  | one => exact Work.addImage_grows ..
  | varSlice => exact Work.registerVariables_grows ..
  | constraintSlice => exact Work.registerConstraints_grows ..

theorem foldl_perform_grows (later : List Registering) (b : Workbench) :
    b.Grows (later.foldl perform b) := by
  induction later generalizing b with
  | nil => exact .refl b
  | cons work later ih => exact (work.perform_grows b).trans (ih _)

end Registering

namespace Registry

/-- Registries that answer every question alike. -/
structure LooksLike (r r' : Registry) : Prop where
  size : r.size = r'.size
  order : r.registrations.map (·.preimage) = r'.registrations.map (·.preimage)
  contains : ∀ preimage, r.contains preimage = r'.contains preimage
  image? : ∀ preimage, r.image? preimage = r'.image? preimage
  owner? : ∀ preimage, r.owner? preimage = r'.owner? preimage
  imageOwner : ∀ image, r.imageOwner image = r'.imageOwner image
  imagesOf : ∀ block, r.imagesOf block = r'.imagesOf block

theorem looksLike_extend_iff {r : Registry} {entries : List Registration} :
    (r.extend entries).LooksLike r ↔ entries = [] := by
  constructor
  · intro alike
    simpa [Registry.size, extend] using alike.size
  · rintro rfl
    rw [extend_nil]
    exact ⟨rfl, rfl, fun _ => rfl, fun _ => rfl, fun _ => rfl, fun _ => rfl, fun _ => rfl⟩

end Registry

namespace Work

/-- What a workbench shows of the images of a kind: as the registry of the kind and, for
variables, as the mapping in use. -/
structure Shows (kind : Registry.Kind) (b : Workbench) (r : Registry) : Prop where
  registry : Work.registry kind b = .ok r b
  mapping : kind = .vars → Work.mapping b = .ok r b

theorem shows_of_frozen {kind : Registry.Kind} {b : Workbench} {r : Registry}
    (frozen : kind = .vars → b.frozen = true) (shown : b.shown kind = r) : Shows kind b r := by
  subst shown
  constructor
  · cases kind <;> rfl
  · rintro rfl
    have flag := frozen rfl
    unfold Work.mapping
    refine Stage.bind_ok.mpr ⟨b, b, rfl, ?_⟩
    rw [flag]
    rfl

theorem freeze_ok (kind : Registry.Kind) (b : Workbench) :
    ∃ frozen, freeze kind b = .ok (b.shown kind) frozen ∧ frozen.shown kind = b.shown kind ∧
      (kind = .vars → frozen.frozen = true) := by
  cases kind with
  | vars => exact ⟨_, rfl, rfl, fun _ => rfl⟩
  | constraints => exact ⟨_, rfl, rfl, nofun⟩

/-- What is shown of a registry that was frozen, after any work that registers images. It is the
registry as it was frozen, with what was registered of new preimages since then behind it. So the
images and blocks of the preimages it had are shown as before, and the block of an image is unless
it was registered again; but everything is shown as before if, and only if, nothing was registered.
Whatever is registered next is shown as well. -/
theorem frozen_shows_later (kind : Registry.Kind) (b : Workbench) (later : List Registering) :
    ∃ frozen entries, freeze kind b = .ok (b.shown kind) frozen ∧
      Shows kind (later.foldl Registering.perform frozen) ((b.shown kind).extend entries) ∧
      (b.shown kind).AreNew entries ∧
      (∀ preimage, (b.shown kind).contains preimage = true →
        ((b.shown kind).extend entries).find? preimage = (b.shown kind).find? preimage) ∧
      (∀ image, image ∉ entries.map (·.image) →
        ((b.shown kind).extend entries).imageOwner image = (b.shown kind).imageOwner image) ∧
      (((b.shown kind).extend entries).LooksLike (b.shown kind) ↔ entries = []) ∧
      ∀ preimage place image block next,
        addImage kind preimage place image block (later.foldl Registering.perform frozen) =
          .ok () next → ∃ p found i,
            reach .compact preimage (later.foldl Registering.perform frozen) = .ok p found ∧
              Shows kind next ((b.shown kind).extend (entries ++ [⟨p, i, block⟩])) := by
  obtain ⟨frozen, made, same, flag⟩ := freeze_ok kind b
  have grows := Registering.foldl_perform_grows later frozen
  obtain ⟨offers, offered⟩ := grows.shown kind
  obtain ⟨entries, extended, -, new⟩ := Registry.offerAll_eq (frozen.shown kind) offers
  have shown := offered.trans extended
  rw [same] at shown new
  refine ⟨frozen, entries, made, shows_of_frozen (fun vars => ?_) shown, new,
    fun preimage there => ?_, fun image others => ?_, Registry.looksLike_extend_iff, ?_⟩
  · rw [grows.frozen, flag vars]
  · obtain ⟨e, found⟩ := Option.isSome_iff_exists.mp there
    rw [Registry.find?_extend, found, Option.some_or]
  · rw [Registry.imageOwner, Registry.imageOwner, Registry.imageOwner?_extend others]
  · intro preimage place image block next added
    obtain ⟨p, found, i, reached, taken⟩ := addImage_ok added
    have still := (addImage_grows kind preimage place image block
      (later.foldl Registering.perform frozen)).frozen
    rw [stateAfter, added] at still
    rw [shown] at taken
    refine ⟨p, found, i, reached, ?_⟩
    rw [Registry.extend_append, ← Registry.eq_extend_of_add taken]
    exact shows_of_frozen (fun vars => still.trans (grows.frozen.trans (flag vars))) rfl

/-- A variable of the compact model, and an empty target for its image. -/
def openBench : Workbench :=
  { Workbench.start with
    next := 2
    compact := { id := 0, name := "model", components := [⟨"x", .vars (.scalar .free), []⟩] }
    targets := [⟨"t", .empty 1 "t"⟩] }

/-- The variable is registered after the registry was frozen without images, and it is shown. -/
theorem openBench_shows_later : ∃ frozen r, freeze .vars openBench = .ok .empty frozen ∧
    Shows .vars ([.varSlice "t" .master [("x", [[]])]].foldl Registering.perform frozen) r ∧
      r.size = 1 ∧ ¬r.LooksLike .empty := by
  have size : (([.varSlice "t" .master [("x", [[]])]].foldl Registering.perform
      { openBench with frozen := true }).shown .vars).size = 1 := by decide +kernel
  refine ⟨{ openBench with frozen := true }, _, rfl,
    shows_of_frozen (fun _ => by decide +kernel) rfl, size, fun alike => ?_⟩
  have none := size.symm.trans alike.size
  cases none

end Work

end BlockAngular
