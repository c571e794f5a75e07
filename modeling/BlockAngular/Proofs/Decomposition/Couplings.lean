import BlockAngular.Proofs.Affine.Collect
import BlockAngular.Proofs.Decomposition.ConstraintMapping
import BlockAngular.Proofs.Decomposition.Tables

/-! # Coupling tables

What a constraint of the master loses stands in the coupling tables, and nothing else does:
a term over the images either is a term of the constraint or is one pair in the table of the
subproblem that its image lives in.
-/

namespace BlockAngular

namespace CouplingTable

variable {κ : Type} {table : CouplingTable κ} {v image row : Handle} {k : κ}

/-- The table of some coefficients, each with its constraint and its variable. -/
def ofEntries (entries : List (Handle × Handle × κ)) : CouplingTable κ :=
  entries.foldl (fun table (row, image, k) => table.addPair image row k) []

theorem ofEntries_concat (entries : List (Handle × Handle × κ)) (row image : Handle) (k : κ) :
    ofEntries (entries ++ [(row, image, k)]) = (ofEntries entries).addPair image row k := by
  simp [ofEntries]

theorem pairsOf_addPair : (table.addPair image row k).pairsOf v =
    if v = image then table.pairsOf v ++ [(row, k)] else table.pairsOf v := by
  by_cases equal : v = image <;> simp [pairsOf, addPair, Handle.lookup_change, equal]

theorem pairsOf_ofEntries (entries : List (Handle × Handle × κ)) (v : Handle) :
    (ofEntries entries).pairsOf v =
      entries.filterMap fun (row, image, k) => if image = v then some (row, k) else none := by
  induction entries using List.reverseRecOn with
  | nil => rfl
  | append_singleton entries e ih =>
      obtain ⟨row, image, k⟩ := e
      by_cases equal : v = image
      · subst equal
        simp [ofEntries_concat, pairsOf_addPair, ih]
      · simp [ofEntries_concat, pairsOf_addPair, ih, equal, Ne.symm equal]

theorem ofEntries_keys_nodup (entries : List (Handle × Handle × κ)) :
    ((ofEntries entries).map (·.1)).Nodup := by
  induction entries using List.reverseRecOn with
  | nil => exact .nil
  | append_singleton entries e ih =>
      rw [ofEntries_concat]
      exact Handle.change_keys_nodup ih

theorem mem_ofEntries_keys {entries : List (Handle × Handle × κ)} :
    v ∈ (ofEntries entries).map (·.1) ↔ ∃ row k, (row, v, k) ∈ entries := by
  induction entries using List.reverseRecOn with
  | nil => simp [ofEntries]
  | append_singleton entries e ih =>
      obtain ⟨row, image, k⟩ := e
      have keys : v ∈ (ofEntries (entries ++ [(row, image, k)])).map (·.1) ↔
          v ∈ (ofEntries entries).map (·.1) ∨ v = image := by
        rw [ofEntries_concat, addPair, Handle.change_keys]
        split
        · rename_i old
          exact ⟨.inl, fun either => either.elim id fun equal => equal ▸ old⟩
        · simp
      rw [keys, ih]
      simp only [List.mem_append, List.mem_singleton, Prod.mk.injEq, exists_or]
      refine or_congr Iff.rfl ⟨fun equal => ⟨row, k, rfl, equal, rfl⟩, ?_⟩
      rintro ⟨_, _, -, equal, -⟩
      exact equal

/-- An entry of a table has the pairs of its variable, and at least one. -/
theorem pairs_of_mem {entries : List (Handle × Handle × κ)} {pairs : List (Handle × κ)}
    (h : (v, pairs) ∈ ofEntries entries) : pairs = (ofEntries entries).pairsOf v ∧ pairs ≠ [] := by
  have listed := (lookup_eq_some (ofEntries_keys_nodup entries)).mpr h
  have equal : pairs = (ofEntries entries).pairsOf v := by rw [pairsOf, listed, Option.getD_some]
  refine ⟨equal, ?_⟩
  obtain ⟨row, k, he⟩ := mem_ofEntries_keys.mp (List.mem_map_of_mem (f := (·.1)) h)
  have there : (row, k) ∈ (ofEntries entries).pairsOf v := by
    rw [pairsOf_ofEntries]
    exact List.mem_filterMap.mpr ⟨(row, v, k), he, by simp⟩
  rw [equal]
  exact List.ne_nil_of_mem there

end CouplingTable

namespace Transfer

/-- The coefficients of a constraint, each with the constraint and its variable. -/
def entries (t : Transfer) : List (Handle × Handle × Float) :=
  t.form.terms.map fun (image, k) => (t.image, image, k)

/-- The coefficient of a variable, with the constraint. -/
def pairOf (t : Transfer) (v : Handle) : Option (Handle × Float) :=
  (t.form.terms.lookup v).map (t.image, ·)

theorem pairOf_eq_some {t : Transfer} (nodup : t.form.vars.Nodup) {v : Handle}
    {pair : Handle × Float} :
    t.pairOf v = some pair ↔ pair.1 = t.image ∧ (v, pair.2) ∈ t.form.terms := by
  obtain ⟨row, k⟩ := pair
  simp only [pairOf, Option.map_eq_some_iff, lookup_eq_some nodup, Prod.mk.injEq]
  constructor
  · rintro ⟨_, he, rfl, rfl⟩
    exact ⟨rfl, he⟩
  · rintro ⟨rfl, he⟩
    exact ⟨k, he, rfl, rfl⟩

theorem filterMap_eq_lookup {α : Type} {terms : List (Handle × α)}
    (nodup : (terms.map (·.1)).Nodup) (v : Handle) :
    terms.filterMap (fun (image, k) => if image = v then some k else none) =
      (terms.lookup v).toList := by
  induction terms with
  | nil => rfl
  | cons term rest ih =>
      obtain ⟨image, k⟩ := term
      obtain ⟨new, others⟩ := List.nodup_cons.mp nodup
      by_cases equal : image = v
      · subst equal
        simp [ih others, lookup_of_absent new]
      · have other : (v == image) = false := by simpa using Ne.symm equal
        simp [equal, List.lookup_cons, other, ih others]

end Transfer

namespace CouplingTable

/-- The table of an id that some transfers give. -/
def ofTransfers (vars : Registry) (id : Value) (transfers : List Transfer) : CouplingTable Float :=
  ofEntries ((transfers.flatMap Transfer.entries).filter fun e =>
    vars.livesIn (.subproblem id) e.2.1)

variable {vars : Registry} {id : Value} {transfers : List Transfer} {v row : Handle} {k : Float}

theorem mem_ofTransfers_keys : v ∈ (ofTransfers vars id transfers).map (·.1) ↔
    vars.livesIn (.subproblem id) v = true ∧ ∃ t ∈ transfers, v ∈ t.form.vars := by
  rw [ofTransfers, mem_ofEntries_keys]
  simp only [List.mem_filter, List.mem_flatMap, Transfer.entries, List.mem_map, Prod.exists,
    Prod.mk.injEq, AffineForm.vars]
  constructor
  · rintro ⟨row, k, ⟨t, ht, _, _, he, rfl, rfl, rfl⟩, lives⟩
    exact ⟨lives, t, ht, _, _, he, rfl⟩
  · rintro ⟨lives, t, ht, _, k, he, rfl⟩
    exact ⟨t.image, k, ⟨t, ht, _, k, he, rfl, rfl, rfl⟩, lives⟩

/-- A variable of the id has one pair for each transfer that mentions it. -/
theorem pairsOf_ofTransfers (nodup : ∀ t ∈ transfers, t.form.vars.Nodup)
    (lives : vars.livesIn (.subproblem id) v = true) :
    (ofTransfers vars id transfers).pairsOf v = transfers.filterMap (·.pairOf v) := by
  have own : ∀ t ∈ transfers, (t.entries.filter fun e => vars.livesIn (.subproblem id) e.2.1).filterMap
      (fun (row, image, k) => if image = v then some (row, k) else none) = (t.pairOf v).toList := by
    intro t ht
    have found := congrArg (·.map (t.image, ·)) (Transfer.filterMap_eq_lookup (nodup t ht) v)
    rw [Transfer.pairOf, Option.toList_map, ← found, Transfer.entries, List.filter_map,
      List.filterMap_map, List.filterMap_filter, List.map_filterMap]
    refine List.filterMap_congr fun ⟨image, k⟩ _ => ?_
    by_cases equal : image = v
    · simp [equal, lives]
    · simp [equal]
  rw [ofTransfers, pairsOf_ofEntries, List.filter_flatMap, List.filterMap_flatMap,
    List.filterMap_eq_flatMap_toList]
  exact List.flatMap_congr own

/-- The constraints of the pairs come in the order of the transfers. -/
theorem pairsOf_ofTransfers_rows (nodup : ∀ t ∈ transfers, t.form.vars.Nodup)
    (lives : vars.livesIn (.subproblem id) v = true) :
    (((ofTransfers vars id transfers).pairsOf v).map (·.1)).Sublist (transfers.map (·.image)) := by
  have rows : ((ofTransfers vars id transfers).pairsOf v).map (·.1) =
      (transfers.filter fun t => (t.pairOf v).isSome).map (·.image) := by
    rw [pairsOf_ofTransfers nodup lives, List.map_filterMap, ← List.filterMap_eq_map,
      List.filterMap_filter]
    refine List.filterMap_congr fun t _ => ?_
    cases found : t.form.terms.lookup v <;> simp [Transfer.pairOf, found]
  rw [rows]
  exact List.filter_sublist.map _

/-- A term of a transfer is one pair. -/
theorem pairsOf_ofTransfers_row (nodup : ∀ t ∈ transfers, t.form.vars.Nodup)
    (images : (transfers.map (·.image)).Nodup) (lives : vars.livesIn (.subproblem id) v = true)
    {t : Transfer} (ht : t ∈ transfers) (he : (v, k) ∈ t.form.terms) :
    ((ofTransfers vars id transfers).pairsOf v).filter (fun pair => pair.1 = t.image) =
      [(t.image, k)] := by
  have found : t.pairOf v = some (t.image, k) := (Transfer.pairOf_eq_some (nodup t ht)).mpr ⟨rfl, he⟩
  have only : ∀ t' ∈ transfers, t' ≠ t →
      (t'.pairOf v).toList.filter (fun pair => pair.1 = t.image) = [] := by
    intro t' ht' other
    refine List.filter_eq_nil_iff.mpr fun pair hp => ?_
    have row := ((Transfer.pairOf_eq_some (nodup t' ht')).mp (by simpa using hp)).1
    simpa [row] using fun same => other (List.inj_on_of_nodup_map images ht' ht same)
  rw [pairsOf_ofTransfers nodup lives, List.filterMap_eq_flatMap_toList, List.filter_flatMap,
    flatMap_eq_of_only images.of_map ht only, found]
  simp

end CouplingTable

/-- The coupling table of an id has the terms of the transfers that live in the id. -/
theorem couplingTables_ok {transfers : List Transfer} {vars : Registry} {ids : List Value}
    (distinct : Value.Distinct ids) {tables : List (Value × CouplingTable Float)}
    (h : couplingTables transfers vars ids = .ok tables) :
    (∀ t ∈ transfers, ∀ v ∈ t.form.vars, ∃ owner, vars.imageOwner? v = some owner) ∧
      tables = ids.map fun id => (id, CouplingTable.ofTransfers vars id transfers) := by
  simp only [couplingTables, Success.bind_ok] at h
  obtain ⟨empty, started, h⟩ := h
  obtain rfl := emptyTables_ok distinct started
  obtain ⟨owned, rfl⟩ := foldlM_changeOwned_ok distinct h
  refine ⟨fun t ht v hv => ?_, rfl⟩
  obtain ⟨⟨image, k⟩, he, rfl⟩ := List.mem_map.mp hv
  exact owned (t.image, image, k)
    (List.mem_flatMap.mpr ⟨t, ht, List.mem_map.mpr ⟨(image, k), he, rfl⟩⟩)

namespace Reformulation

open Decomposition

/-- The body of a constraint of the model, over the images of its variables. -/
def IsMappedBody (r : Reformulation) (m : Model) (handle : Handle) (form : AffineForm) : Prop :=
  ∃ original, m.constraintOf? handle = some original ∧
    original.body.mapped (imageReading m r.vars) r.vars.image?
      ("constraint " ++ m.nameOf handle) = .ok form

/-- What a constraint of the master and the coupling tables keep of a form: every term is in the
one place or in the other, and once. -/
structure SharesTerms (r : Reformulation) (row : Handle) (form : AffineForm) : Prop where
  vars_nodup : form.vars.Nodup
  master : ∃ c, r.master.constraintOf? row = some c ∧ c.body = Expression.ofTerms form.constant
    (form.terms.filter fun term => r.vars.livesIn .master term.1)
  terms : ∀ v k, (v, k) ∈ form.terms → r.vars.imageOwner? v = some .master ∨
    ∃ s ∈ r.subproblems, r.vars.imageOwner? v = some (.subproblem s.id) ∧
      (s.coupling.pairsOf v).filter (fun pair => pair.1 = row) = [(row, k)]

/-- The constraints of the master and the coupling tables have the terms of the constraints
that went to the master, and nothing else. -/
structure CouplesExactly (r : Reformulation) (m : Model) (config : Config) : Prop where
  shared : ∀ handle row, r.constraints.image? handle = some row →
    r.constraints.owner? handle = some .master → ∃ form, r.IsMappedBody m handle form ∧
      r.SharesTerms row form
  keys : ∀ s ∈ r.subproblems, (s.coupling.map (·.1)).Nodup ∧ ∀ v ∈ s.coupling.map (·.1),
    v ∈ s.vars ∧ r.vars.imageOwner? v = some (.subproblem s.id)
  /-- The pairs of a variable are there, and come in the order of registration. -/
  order : ∀ s ∈ r.subproblems, ∀ v pairs, (v, pairs) ∈ s.coupling → pairs ≠ [] ∧
    (pairs.map (·.1)).Nodup ∧
      (pairs.map (·.1)).Sublist (r.constraints.registrations.map (·.image))
  /-- A pair is about a term of a constraint of the master that is no convexity constraint. -/
  pairs : ∀ s ∈ r.subproblems, ∀ v pairs, (v, pairs) ∈ s.coupling → ∀ row k, (row, k) ∈ pairs →
    (∃ handle form, r.constraints.image? handle = some row ∧
      r.constraints.owner? handle = some .master ∧ r.IsMappedBody m handle form ∧
        (v, k) ∈ form.terms) ∧
      row ∈ r.master.allConstraints.map (·.2) ∧ config.isConvexityName row.component = false ∧
      ∀ other ∈ r.subproblems, row ∉ other.model.allConstraints.map (·.2)
  /-- Every id has a table, also one that constraints alone are annotated with. -/
  tables : ∃ tables, couplingTables (masterTransfers r.transfers) r.vars r.ids = .ok tables ∧
    tables.map (·.1) = r.ids ∧
      ∀ s ∈ r.subproblems, Value.lookup? s.id tables = some s.coupling
  ids : ∀ key id, (key, .subproblem id) ∈ r.assignment.vars ∨
    (key, .subproblem id) ∈ r.assignment.constraints → ∃ s, r.subproblem id = .ok s

namespace Trace

variable {first : Nat} {m : Model} {classify : Classify} {config : Config} {r : Reformulation}

/-- The master has the transfers of its own constraints. -/
theorem masterTransfers_of (h : r.Trace first m classify config) :
    List.Forall₂ (TransferOf (imageReading m r.vars) r.vars .master m first)
      (r.partition.constraintsOf .master).places (masterTransfers r.transfers) := by
  have all := h.transfers
  have numbers : numbered r.ids = (.master, 0) :: (r.ids.map .subproblem).zipIdx 1 := rfl
  rw [numbers] at all
  generalize listed : r.transfers = transfers at all
  cases all with
  | @cons _ t _ others ofMaster ofOthers =>
      obtain ⟨block, own⟩ := t
      obtain ⟨rfl, transferred⟩ := ofMaster
      have rest : masterTransfers others = [] := by
        refine List.flatMap_eq_nil_iff.mpr fun ⟨block, ts⟩ ht => ?_
        obtain ⟨⟨_, number⟩, hb, rfl, -⟩ := (exists_of_forall₂ ofOthers).2 _ ht
        obtain ⟨id, -, rfl⟩ := List.mem_map.mp (List.fst_mem_of_mem_zipIdx hb)
        rfl
      have start : masterTransfers ((.master, own) :: others) = own ++ masterTransfers others := rfl
      simpa [start, rest] using transferred

theorem transfer_ok {vars : Registry} {block : Block} {id : Nat} {place : Key × Nat} {t : Transfer}
    (h : TransferOf (imageReading m vars) vars block m id place t) :
    t.preimage = m.preimageOf place.1 ∧ t.image = ⟨id, place.1.name, place.2⟩ ∧
      t.form.vars.Nodup ∧ ∃ original, m.constraintOf? t.preimage = some original ∧
        original.body.mapped (imageReading m vars) vars.image?
          ("constraint " ++ m.nameOf t.preimage) = .ok t.form := by
  obtain ⟨transit, transited, rfl⟩ := h
  obtain ⟨preimage, original, there, mapped, -⟩ := transitOf_ok transited
  refine ⟨preimage, rfl, Expression.mapped_vars_nodup mapped, original, ?_⟩
  rw [preimage]
  exact ⟨Model.constraintAt_ok there, mapped⟩

/-- The transfers to the master come in the order of registration. -/
theorem masterTransfers_images (h : r.Trace first m classify config) :
    (masterTransfers r.transfers).map (·.image) = r.constraints.imagesOf .master := by
  have listed : List.Forall₂ (· = ·) ((masterTransfers r.transfers).map (·.image))
      (((r.partition.constraintsOf .master).imagesIn first).map (·.2)) := by
    simp only [Slice.imagesIn, List.map_map]
    rw [List.forall₂_map_left_iff, List.forall₂_map_right_iff]
    exact h.masterTransfers_of.flip.imp fun _ _ transferred => (transfer_ok transferred).2.1
  rw [List.forall₂_eq_eq_eq] at listed
  rw [listed, h.constraintsOf_eq,
    h.constraints_covers.imagesOf_eq (master_numbered r.ids)
      (show Block.master.same .master = true from rfl)]
  rfl

/-- A transfer to the master is about a constraint of the master. -/
theorem of_mem_masterTransfers (h : r.Trace first m classify config) {t : Transfer}
    (ht : t ∈ masterTransfers r.transfers) : t.form.vars.Nodup ∧
      r.IsMappedBody m t.preimage t.form ∧ ∃ key, t.preimage = m.preimageOf key ∧
        (key, t.image) ∈ (r.assignment.constraints.sliceOf .master).imagesIn first := by
  obtain ⟨⟨key, position⟩, placed, transferred⟩ := (exists_of_forall₂ h.masterTransfers_of).2 t ht
  obtain ⟨preimage, image, nodup, mapped⟩ := transfer_ok transferred
  refine ⟨nodup, mapped, key, preimage, ?_⟩
  rw [← h.constraintsOf_eq]
  exact List.mem_map.mpr ⟨_, placed, by rw [image]⟩

/-- A constraint that went to the master has its transfer. -/
theorem exists_transfer (h : r.Trace first m classify config) {handle row : Handle}
    (mapped : r.constraints.image? handle = some row)
    (owned : r.constraints.owner? handle = some .master) :
    ∃ t ∈ masterTransfers r.transfers, t.preimage = handle ∧ t.image = row := by
  have faithful := h.constraints_covers.faithful
  obtain ⟨e, he, rfl, rfl⟩ := faithful.image?_iff.mp mapped
  obtain ⟨e', he', same, master⟩ := faithful.owner?_iff.mp owned
  obtain rfl := List.inj_on_of_nodup_map faithful.preimages_nodup he' he same
  have listed : e'.image ∈ r.constraints.imagesOf .master := by
    rw [faithful.imagesOf_eq]
    exact List.mem_map_of_mem (List.mem_filter.mpr ⟨he, by simp [master, Block.same]⟩)
  rw [← h.masterTransfers_images] at listed
  obtain ⟨t, ht, image⟩ := List.mem_map.mp listed
  obtain ⟨-, -, key, preimage, placed⟩ := h.of_mem_masterTransfers ht
  have registered := h.constraints_covers.image?_eq (master_numbered r.ids) placed
  rw [← preimage, image] at registered
  exact ⟨t, ht, faithful.image?_injective registered mapped, image⟩

/-- An image lives in a block of the decomposition if the block is its owner. -/
theorem livesIn_iff (h : r.Trace first m classify config) {b : Block × Nat}
    (hb : b ∈ numbered r.ids) {image : Handle} :
    r.vars.livesIn b.1 image = true ↔ r.vars.imageOwner? image = some b.1 := by
  simp only [Registry.livesIn, Option.any_eq_true]
  constructor
  · rintro ⟨owner, owned, same⟩
    obtain ⟨b', hb', rfl, -⟩ := h.vars_covers.image_of_owner owned
    rw [owned, numbered_unique h.ids_distinct hb' hb same]
  · intro owned
    exact ⟨b.1, owned, Block.same_self (blocks_isKey h.ids_distinct (block_mem hb))⟩

/-- The table of a subproblem has the terms that live in it. -/
theorem coupling_eq (h : r.Trace first m classify config) {s : Subproblem}
    (hs : s ∈ r.subproblems) :
    s.coupling = .ofTransfers r.vars s.id (masterTransfers r.transfers) := by
  obtain ⟨tables, made, ofTable⟩ := h.couplings
  obtain ⟨-, rfl⟩ := couplingTables_ok h.ids_distinct made
  rw [ofTable s hs, lookup?_tables h.ids_distinct (List.mem_map_of_mem hs), Option.getD_some]

theorem subproblem_numbered (h : r.Trace first m classify config) (wf : m.WellFormed)
    {s : Subproblem} (hs : s ∈ r.subproblems) : ∃ number, (.subproblem s.id, number) ∈ numbered r.ids ∧
      View r first m config (.subproblem s.id, number) s.model :=
  h.exists_numbered wf (List.mem_cons_of_mem _ (List.mem_map_of_mem hs))

/-- A variable in a coupling table lives in its subproblem and in some transfer. -/
theorem coupling_keys (h : r.Trace first m classify config) (wf : m.WellFormed) {s : Subproblem}
    (hs : s ∈ r.subproblems) {v : Handle} (hv : v ∈ s.coupling.map (·.1)) :
    r.vars.livesIn (.subproblem s.id) v = true ∧ v ∈ s.vars ∧
      r.vars.imageOwner? v = some (.subproblem s.id) := by
  obtain ⟨number, hb, view⟩ := h.subproblem_numbered wf hs
  rw [h.coupling_eq hs, CouplingTable.mem_ofTransfers_keys] at hv
  exact ⟨hv.1, h.mem_vars_of_livesIn hb view hv.1, (h.livesIn_iff hb).mp hv.1⟩

/-- A pair of a coupling table is about a term of a transfer. -/
theorem transfer_of_pair (h : r.Trace first m classify config) (wf : m.WellFormed)
    {s : Subproblem} (hs : s ∈ r.subproblems) {v : Handle} {pairs : List (Handle × Float)}
    (he : (v, pairs) ∈ s.coupling) {row : Handle} {k : Float} (hp : (row, k) ∈ pairs) :
    ∃ t ∈ masterTransfers r.transfers, t.image = row ∧ (v, k) ∈ t.form.terms := by
  have lives : r.vars.livesIn (.subproblem s.id) v = true :=
    (h.coupling_keys wf hs (List.mem_map_of_mem (f := (·.1)) he)).1
  have nodup := fun t ht => (h.of_mem_masterTransfers (t := t) ht).1
  rw [h.coupling_eq hs] at he
  rw [(CouplingTable.pairs_of_mem he).1.trans (CouplingTable.pairsOf_ofTransfers nodup lives)] at hp
  obtain ⟨t, ht, found⟩ := List.mem_filterMap.mp hp
  obtain ⟨image, term⟩ := (Transfer.pairOf_eq_some (nodup t ht)).mp found
  exact ⟨t, ht, image.symm, term⟩

/-- A transfer to the master ends in the master, and not in a convexity constraint. -/
theorem transfer_row (h : r.Trace first m classify config) (wf : m.WellFormed) {t : Transfer}
    (ht : t ∈ masterTransfers r.transfers) : t.image ∈ r.master.allConstraints.map (·.2) ∧
      config.isConvexityName t.image.component = false ∧
      ∀ s ∈ r.subproblems, t.image ∉ s.model.allConstraints.map (·.2) := by
  obtain ⟨-, -, key, -, placed⟩ := h.of_mem_masterTransfers ht
  obtain ⟨model, component⟩ := Slice.of_mem_imagesIn placed
  have view := h.master_view wf
  have row := placed
  rw [← Nat.add_zero first, ← view.rows] at row
  obtain ⟨listed, ordinary⟩ := List.mem_filter.mp row
  refine ⟨List.mem_map_of_mem (f := (·.2)) listed, by simpa [component, Block.isMaster] using ordinary,
    fun s hs there => ?_⟩
  obtain ⟨number, hb', view'⟩ := h.subproblem_numbered wf hs
  obtain ⟨⟨key', _⟩, listed', rfl⟩ := List.mem_map.mp there
  have row' : (key', t.image) ∈ ordinaryRows config (.subproblem s.id) s.model :=
    List.mem_filter.mpr ⟨listed', rfl⟩
  rw [view'.rows] at row'
  have model' := (Slice.of_mem_imagesIn row').1
  obtain rfl : number = 0 := by omega
  exact absurd (mem_numbered.mp hb') (by simp [blocks])

theorem sharesTerms (h : r.Trace first m classify config) (wf : m.WellFormed) {t : Transfer}
    (ht : t ∈ masterTransfers r.transfers) : r.SharesTerms t.image t.form := by
  obtain ⟨nodup, ⟨original, there, mapped⟩, key, preimage, placed⟩ := h.of_mem_masterTransfers ht
  have view := h.master_view wf
  rw [← Nat.add_zero first, ← view.rows] at placed
  obtain ⟨c, found, made⟩ := view.constraint key t.image placed
  obtain ⟨_, form, -, there', mapped', -, body, -, -, owners⟩ := imageConstraint_ok wf made
  rw [← preimage] at there' mapped'
  obtain rfl := Option.some.inj (there.symm.trans there')
  obtain rfl := Except.ok.inj (mapped.symm.trans mapped')
  refine ⟨nodup, ⟨c, found, body⟩, fun v k he => ?_⟩
  obtain ⟨owner, owned⟩ := owners _ he
  obtain ⟨⟨block, number⟩, hb', rfl, -⟩ := h.vars_covers.image_of_owner owned
  cases block with
  | master => exact .inl owned
  | subproblem id =>
      obtain ⟨s, hs, rfl⟩ : ∃ s ∈ r.subproblems, s.id = id := by
        simpa [blocks, Reformulation.ids] using block_mem hb'
      refine .inr ⟨s, hs, owned, ?_⟩
      rw [h.coupling_eq hs]
      refine CouplingTable.pairsOf_ofTransfers_row
        (fun t ht => (h.of_mem_masterTransfers ht).1) ?_ ((h.livesIn_iff hb').mpr owned) ht he
      rw [h.masterTransfers_images]
      exact h.constraints_covers.imagesOf_nodup .master

end Trace

end Reformulation

namespace Decomposition

/-- Coupling tables are exact, and complementary to the constraints of the master. -/
theorem couplesExactly {first : Nat} {m : Model} {classify : Classify} {config : Config}
    {r : Reformulation} (wf : m.WellFormed) (h : decompose first m classify config = .ok r) :
    r.CouplesExactly m config := by
  have trace := decompose_trace wf h
  have nodup := fun t ht => (trace.of_mem_masterTransfers (t := t) ht).1
  refine ⟨fun handle row mapped owned => ?_, fun s hs => ⟨?_, fun v hv =>
    (trace.coupling_keys wf hs hv).2⟩, fun s hs v pairs he => ?_, fun s hs v pairs he row k hp => ?_,
    ?_, fun key id he => ?_⟩
  · obtain ⟨t, ht, rfl, rfl⟩ := trace.exists_transfer mapped owned
    exact ⟨t.form, (trace.of_mem_masterTransfers ht).2.1, trace.sharesTerms wf ht⟩
  · rw [trace.coupling_eq hs]
    exact CouplingTable.ofEntries_keys_nodup _
  · have lives : r.vars.livesIn (.subproblem s.id) v = true :=
      (trace.coupling_keys wf hs (List.mem_map_of_mem (f := (·.1)) he)).1
    rw [trace.coupling_eq hs] at he
    obtain ⟨rfl, some_pair⟩ := CouplingTable.pairs_of_mem he
    have rows := CouplingTable.pairsOf_ofTransfers_rows nodup lives
    rw [trace.masterTransfers_images] at rows
    refine ⟨some_pair, (trace.constraints_covers.imagesOf_nodup .master).sublist rows,
      rows.trans ?_⟩
    rw [trace.constraints_covers.faithful.imagesOf_eq]
    exact List.filter_sublist.map _
  · obtain ⟨t, ht, rfl, term⟩ := trace.transfer_of_pair wf hs he hp
    obtain ⟨-, mapped, key, preimage, placed⟩ := trace.of_mem_masterTransfers ht
    refine ⟨⟨t.preimage, t.form, ?_, ?_, mapped, term⟩, trace.transfer_row wf ht⟩
    · rw [preimage]
      exact trace.constraints_covers.image?_eq (master_numbered _) placed
    · rw [preimage]
      exact trace.constraints_covers.owner?_eq (master_numbered _) placed
  · obtain ⟨tables, made, -⟩ := trace.couplings
    obtain ⟨-, rfl⟩ := couplingTables_ok trace.ids_distinct made
    refine ⟨_, made, by simp [Function.comp_def], fun s hs => ?_⟩
    rw [lookup?_tables trace.ids_distinct (List.mem_map_of_mem hs), trace.coupling_eq hs]
  · obtain ⟨block, hblock, same⟩ := trace.exists_block he
    obtain ⟨s, hs, own⟩ : ∃ s ∈ r.subproblems, s.id.same id = true := by
      cases block with
      | master => cases same
      | subproblem own =>
          obtain ⟨s, hs, rfl⟩ : ∃ s ∈ r.subproblems, s.id = own := by
            simpa [blocks, Reformulation.ids] using hblock
          exact ⟨s, hs, same⟩
    have found : (r.subproblems.find? fun s => s.id.same id).isSome = true :=
      List.find?_isSome.mpr ⟨s, hs, own⟩
    obtain ⟨s', equal⟩ := Option.isSome_iff_exists.mp found
    have hashable : id.hashable = true := by
      rcases he with he | he
      · exact (trace.sound.vars.blocks _ he).hashable
      · exact (trace.sound.constraints.blocks _ he).hashable
    exact ⟨s', by simp [Reformulation.subproblem, hashable, equal]⟩

end Decomposition

/-- The constraint on both variables leaves one term in the master and one in a table. -/
theorem twoColumns_couplesExactly : twoColumns.WellFormed ∧
    ∃ r, Decomposition.decompose 1 twoColumns firstApart .standard = .ok r ∧
      r.CouplesExactly twoColumns .standard := by
  obtain ⟨r, h⟩ := twoColumns_decomposes
  exact ⟨twoColumns_wellFormed, r, h, Decomposition.couplesExactly twoColumns_wellFormed h⟩

end BlockAngular
