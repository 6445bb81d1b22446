import TransitQuery.CommandLine.Run
import TransitQuery.Proofs.Feature
import TransitQuery.Proofs.Plan.Around
import TransitQuery.Proofs.Service.Undisturbed

/-!
# Runs over features

The command line loads features and asks for those around a point. The geometry of a feature is
loaded into the column of GeoJSON if the context has one, and only without it into the geometry
column. The tier of boxes reads what was loaded. The native tier reads the geometry column, so it
finds the features near the point if that is where the geometries are, and nothing at all, without
an error, if the context names another column for GeoJSON (`CommandLine.resultOn_readStore`).

The way there follows the run. A file that is read makes a table of the rows of its features
(`CommandLine.rows?_of_loadFile`), and the file for the other table leaves it alone. The columns
into which one thing is loaded have to be other columns than those of anything else;
`CommandLine.KeepsApart` collects what this means for a context and a list of features, and can be
decided. A plan that looks around a point then accepts the row of a feature just if the feature
itself is around the point in the sense of its tier (`Feature.isAround`), and the reported
identifiers are those that the properties hold, each listed once.

At the end both outcomes are seen on one file with one feature: without a column for GeoJSON the
run lists a pier at the selected point, and with one it succeeds and lists nothing.
-/

namespace TransitQuery

variable {R : Type}

namespace Row

variable [Scalar R]

/-- Features are found among their rows, and their identifiers are among their properties. -/
theorem distinctIds_filter_map {features : List (Json R)} {row : Json R → Row R}
    {accepts : Row R → Bool} {selects : Json R → Bool} {idField : String}
    (haccepts : ∀ feature ∈ features, accepts (row feature) = selects feature)
    (hid : ∀ feature ∈ features,
      (row feature).id? idField = (Feature.properties feature).id? idField) :
    distinctIds idField ((features.map row).filter accepts) =
      distinctIds idField ((features.filter selects).map Feature.properties) := by
  have hfilter : features.filter (accepts ∘ row) = features.filter selects :=
    List.filter_congr haccepts
  rw [distinctIds, distinctIds, List.filter_map, List.filterMap_map, List.filterMap_map, hfilter]
  refine congrArg _ (List.filterMap_congr fun feature hfeature => ?_)
  exact hid feature (List.mem_of_mem_filter hfeature)

end Row

/-- What a query around a point looks for in a feature: on the native tier whether its geometry is
near, on the tier of boxes whether its box intersects the one around the point, and then, if there
is a column of GeoJSON, whether its geometry lies within so many meters. -/
def Feature.isAround [Scalar R] (c : Context R) (p : LatLng R) (meters : R) (tier : Tier)
    (feature : Json R) : Bool :=
  match tier with
  | .native => (Feature.geometry? feature).any (·.isNear p (degreesOfMeters meters))
  | .bbox =>
    ((p.surroundings? meters).any fun box => (box? feature).any (·.intersects box)) &&
      c.geojsonField.all fun _ => (Feature.geometry? feature).any (·.isWithin p meters)

namespace CommandLine

/-! ### Columns -/

/-- The four columns into which the boxes of features are loaded. -/
def boxColumns (c : Context R) : BoxColumns :=
  c.bboxFields.getD BoxColumns.default

/-- The columns of a context keep apart what is loaded from features: the four columns of boxes have
different names, no column is used for two things, and none is a property. -/
structure KeepsApart (c : Context R) (features : List (Json R)) : Prop where
  nodup : (boxColumns c).names.Nodup
  geometry : ∀ column ∈ geometryColumn c :: (c.geometryField.toList ++ c.geojsonField.toList),
    column ∉ (boxColumns c).names ∧ c.serviceIdField ≠ some column
  id : ∀ idField ∈ c.serviceIdField, idField ∉ (boxColumns c).names
  properties : ∀ feature ∈ features,
    ∀ column ∈ c.geometryField.toList ++ c.geojsonField.toList ++ (boxColumns c).names,
      (Feature.properties feature).cell? column = none

instance (c : Context R) (features : List (Json R)) : Decidable (KeepsApart c features) :=
  decidable_of_iff
    ((boxColumns c).names.Nodup ∧
      (∀ column ∈ geometryColumn c :: (c.geometryField.toList ++ c.geojsonField.toList),
        column ∉ (boxColumns c).names ∧ c.serviceIdField ≠ some column) ∧
      (∀ idField ∈ c.serviceIdField, idField ∉ (boxColumns c).names) ∧
      ∀ feature ∈ features,
        ∀ column ∈ c.geometryField.toList ++ c.geojsonField.toList ++ (boxColumns c).names,
          ((Feature.properties feature).cell? column).isNone)
    ⟨fun ⟨h₁, h₂, h₃, h₄⟩ => ⟨h₁, h₂, h₃, fun f hf col hcol =>
        Option.isNone_iff_eq_none.mp (h₄ f hf col hcol)⟩,
      fun h => ⟨h.nodup, h.geometry, h.id, fun f hf col hcol =>
        Option.isNone_iff_eq_none.mpr (h.properties f hf col hcol)⟩⟩

/-! ### Loading -/

variable [Scalar R]

/-- The row of a feature in the columns of a context. -/
def rowOf (c : Context R) (feature : Json R) : Row R :=
  Row.ofFeature (boxColumns c) (geometryColumn c) feature

omit [Scalar R] in
/-- What a file is read as comes from its text. -/
private theorem exists_text_of_readFile {α : Type} {files : Files} {read : String → Option α}
    {name : String} {a : α} (h : readFile (R := R) files read name = .ok a) :
    ∃ text, read text = some a := by
  obtain ⟨text, -, h⟩ := bind_eq_ok_iff.mp h
  split at h
  · rename_i a' ha
    cases h
    exact ⟨text, ha⟩
  · cases h

/-- The features of a file make the table into which they are loaded, if it was not there. -/
theorem rows?_of_loadFile {files : Files} {c : Context R} {table name : String}
    {s s' : Store R} {collection : Json R} {features : List (Json R)}
    (hfile : readFile (R := R) files Json.ofText? name = .ok collection)
    (hfeatures : (collection.member? "features").bind Json.items? = some features)
    (hnone : s.rows? table = none) (h : loadFile files c table s (some name) = .ok s') :
    s'.rows? table = some (features.map (rowOf c)) := by
  obtain ⟨collection', hfile', h⟩ := bind_eq_ok_iff.mp h
  obtain rfl := Except.ok.inj (hfile.symm.trans hfile')
  rw [mapError_eq_ok_iff] at h
  exact Store.rows?_of_load hfeatures hnone h

/-- A file that is loaded into another table leaves a table as it is. -/
theorem rows?_of_loadFile_of_ne {files : Files} {c : Context R} {table other : String}
    {s s' : Store R} {source : Option String} (hne : source = none ∨ other ≠ table)
    (h : loadFile files c other s source = .ok s') : s'.rows? table = s.rows? table := by
  cases source with
  | none =>
    obtain rfl := Except.ok.inj h
    rfl
  | some name =>
    obtain ⟨collection, -, h⟩ := bind_eq_ok_iff.mp h
    rw [mapError_eq_ok_iff] at h
    obtain ⟨rows, -, h⟩ := bind_eq_ok_iff.mp h
    obtain rfl := Except.ok.inj h
    exact Store.rows?_insert_of_ne (hne.resolve_left (by simp)) rows

section

variable {files : Files} {c : Context R} {i : Invocation} {store : Store R} {name : String}
  {collection : Json R} {features : List (Json R)}
  (hstore : readStore files c i = .ok store) (hroutes : i.sources.routes = some name)
  (hstops : i.sources.stops = none ∨ i.settings.stopsTable ≠ i.settings.routesTable)
  (hfile : readFile (R := R) files Json.ofText? name = .ok collection)
  (hfeatures : (collection.member? "features").bind Json.items? = some features)
include hstore hroutes hstops hfile hfeatures

/-- After both files have been loaded, the table of routes holds the rows of its features. -/
private theorem rows?_of_readStore :
    store.rows? i.settings.routesTable = some (features.map (rowOf c)) := by
  have hsqlite : i.sources.sqlite.isSome = false := by
    rw [← Bool.not_eq_true]
    intro h
    rw [readStore, if_pos h] at hstore
    cases hstore
  simp only [readStore, hsqlite, hroutes, Option.isNone_some, Bool.false_and, Bool.false_eq_true,
    if_false] at hstore
  obtain ⟨loaded, hloaded, hstore⟩ := bind_eq_ok_iff.mp hstore
  rw [rows?_of_loadFile_of_ne hstops hstore]
  exact rows?_of_loadFile hfile hfeatures rfl hloaded

end

/-! ### Finding -/

/-- The identifiers of the features that a query around a point is to list on a tier. -/
def idsAround (c : Context R) (features : List (Json R)) (idField : String) (p : LatLng R)
    (meters : R) (tier : Tier) : List String :=
  Row.distinctIds idField
    ((features.filter (Feature.isAround c p meters tier)).map Feature.properties)

section

variable {c : Context R} {features : List (Json R)} {plan : Plan R} {p : LatLng R} {meters : R}
  (hapart : KeepsApart c features)
include hapart

/-- The identifier of a row is a property. -/
theorem id?_rowOf {idField : String} (hid : c.serviceIdField = some idField) (feature : Json R) :
    (rowOf c feature).id? idField = (Feature.properties feature).id? idField := by
  refine Row.id?_ofFeature (fun h => ?_) (hapart.id idField hid)
  exact (hapart.geometry _ List.mem_cons_self).2 (h ▸ hid)

/-- The native tier finds the features near the point if the geometry column is the one into which
geometries are loaded. -/
theorem found_native (hplan : plan.IsAround c p meters .native)
    (hid : c.serviceIdField = some plan.request.idField)
    (hcolumn : c.geometryField = some (geometryColumn c)) :
    plan.found (features.map (rowOf c)) =
      idsAround c features plan.request.idField p meters .native := by
  obtain ⟨field, hfield, haccepts⟩ := hplan.accepts_native
  obtain rfl := Option.some.inj (hfield.symm.trans hcolumn)
  refine Row.distinctIds_filter_map (fun feature hfeature => ?_) fun feature _ =>
    id?_rowOf hapart hid feature
  have hproperty := hapart.properties feature hfeature (geometryColumn c) (by simp [hfield])
  rw [haccepts, rowOf, Row.geometry?_ofFeature hproperty]
  rfl

/-- It finds nothing if that is another column. -/
theorem found_native_eq_nil (hplan : plan.IsAround c p meters .native)
    (hcolumn : c.geometryField ≠ some (geometryColumn c)) :
    plan.found (features.map (rowOf c)) = [] := by
  obtain ⟨field, hfield, haccepts⟩ := hplan.accepts_native
  have hne : field ≠ geometryColumn c := fun h => hcolumn (h ▸ hfield)
  have hnone : (features.map (rowOf c)).filter plan.accepts = [] := by
    rw [List.filter_eq_nil_iff]
    intro row hrow
    obtain ⟨feature, hfeature, rfl⟩ := List.mem_map.mp hrow
    have hcell : (rowOf c feature).cell? field = none := by
      rw [rowOf, Row.cell?_ofFeature_of_ne hne
        (hapart.geometry field (by simp [hfield])).1]
      exact hapart.properties feature hfeature field (by simp [hfield])
    rw [haccepts, Row.geometry?, hcell]
    simp
  rw [Plan.found, hnone]
  rfl

/-- The tier of boxes finds the features that it looks for. -/
theorem found_bbox [SteadyScalar R] (hplan : plan.IsAround c p meters .bbox)
    (hid : c.serviceIdField = some plan.request.idField)
    (hheld : ∀ feature ∈ features, feature.IsHeld) :
    plan.found (features.map (rowOf c)) =
      idsAround c features plan.request.idField p meters .bbox := by
  obtain ⟨columns, box, hcolumns, hbox, haccepts⟩ := hplan.accepts_bbox
  have hboxColumns : boxColumns c = columns := by rw [boxColumns, hcolumns, Option.getD_some]
  refine Row.distinctIds_filter_map (fun feature hfeature => ?_) fun feature _ =>
    id?_rowOf hapart hid feature
  have hoverlaps := Row.boxOverlaps_ofFeature
    (Feature.isFinite_box? (hheld feature hfeature)) hapart.nodup
    (hapart.geometry _ List.mem_cons_self).1
    (fun name hname => hapart.properties feature hfeature name (by simp [hname])) box
  rw [haccepts, ← hboxColumns, rowOf, hoverlaps, Feature.isAround, hbox, Option.any_some]
  congr 1
  cases hgeojson : c.geojsonField with
  | none => rfl
  | some field =>
    have hcolumn : geometryColumn c = field := by simp [geometryColumn, hgeojson]
    have hproperty := hapart.properties feature hfeature field (by simp [hgeojson])
    rw [Option.all_some, Option.all_some, hcolumn, Row.geometry?_ofFeature hproperty]

end

variable [LegibleScalar R] [SteadyScalar R]

/-- What a run lists for a query around a point. On the tier of boxes, the features whose box
intersects the one around the point, and which lie within so many meters if there is a column of
GeoJSON. On the native tier, the features whose geometry is near the point, if the geometry column
is the one into which geometries are loaded; it is not if the context has another column for
GeoJSON, and then the run lists nothing and reports no error. -/
theorem resultOn_readStore {q : SpatialQuery R} {c : Context R} {contract : Contract R}
    {plan : Plan R} {files : Files} {i : Invocation} {store : Store R} {name : String}
    {collection : Json R} {features : List (Json R)} {now : Instant}
    (hvalid : q.violations c = []) (hfind : q.find = .routes)
    (htarget : q.target = .selectedPoint) (hblocks : q.blocks = [])
    (hcontract : q.compile now c = .ok contract)
    (hplan : Plan.ofContract contract c i.settings = .ok plan)
    (hstore : readStore files c i = .ok store) (hroutes : i.sources.routes = some name)
    (hstops : i.sources.stops = none ∨ i.settings.stopsTable ≠ i.settings.routesTable)
    (hfile : readFile (R := R) files Json.ofText? name = .ok collection)
    (hfeatures : (collection.member? "features").bind Json.items? = some features)
    (hapart : KeepsApart c features) :
    ∃ idField p tier, c.serviceIdField = some idField ∧ c.point = some p ∧
      Tier.select c = some tier ∧
      (tier = .bbox ∨ c.geometryField = some (geometryColumn c) →
        resultOn store now i.settings q c =
          .ofIds (idsAround c features idField p q.distance tier)) ∧
      (tier = .native → c.geometryField ≠ some (geometryColumn c) →
        resultOn store now i.settings q c = .ofIds []) := by
  obtain ⟨idField, p, tier, hid, hp, htier, htable, hidField, haround⟩ :=
    Plan.exists_isAround hvalid htarget hblocks hcontract hplan
  have hheld : ∀ feature ∈ features, feature.IsHeld := by
    obtain ⟨text, htext⟩ := exists_text_of_readFile hfile
    obtain ⟨items, hitems, hfeatures⟩ := Option.bind_eq_some_iff.mp hfeatures
    have hheld := Json.isInherited_isHeld.of_member? (Json.isHeld_of_ofText? htext) hitems
    cases items with
    | arr items =>
      obtain rfl := Option.some.inj hfeatures
      exact Json.isInherited_isHeld.of_items _ hheld
    | _ => cases hfeatures
  -- the run lists what the plan is meant to find in the rows of the features
  have hrows : store.rows? plan.request.table = some (features.map (rowOf c)) := by
    rw [htable, hfind]
    exact rows?_of_readStore hstore hroutes hstops hfile hfeatures
  have hfound : resultOn store now i.settings q c =
      .ofIds (plan.found (features.map (rowOf c))) := by
    refine Session.execute_eq_found (d := .none) hvalid ?_ hplan trivial rfl hrows ?_
      fun row _ => haround.isDecided row
    · rw [Service.contractFor_fst]
      exact hcontract
    · intro row hrow
      obtain ⟨feature, hfeature, rfl⟩ := List.mem_map.mp hrow
      exact Row.hasFiniteNumbers_ofFeature (hheld feature hfeature) _ _
  refine ⟨idField, p, tier, hid, hp, htier, ?_, ?_⟩
  · intro hcolumn
    rw [hfound]
    cases tier with
    | native =>
      rw [found_native hapart haround (hidField ▸ hid) (hcolumn.resolve_left (by simp)), hidField]
    | bbox => rw [found_bbox hapart haround (hidField ▸ hid) hheld, hidField]
  · rintro rfl hcolumn
    rw [hfound, found_native_eq_nil hapart haround hcolumn]

/-! ### A pier at the selected point -/

/-- One file, with a pier at the origin. -/
def pierFiles : Files := fun name =>
  if name = "routes.json" then
    .ok ("\x7b\"features\": [\x7b\"properties\": \x7b\"id\": \"pier\"\x7d, " ++
      "\"geometry\": \x7b\"type\": \"Point\", \"coordinates\": [0, 0]\x7d\x7d]\x7d")
  else .error "no such file"

/-- The invocation that runs a query over that file. -/
def pierInvocation : Invocation where
  command := .run
  format := .json
  query := "query.json"
  context := "context.json"
  point := none
  sources := ⟨some "routes.json", none, none⟩
  settings := Settings.default

/-- Routes within 300 meters of the selected point. -/
def pierQuery : SpatialQuery FlatDouble where
  find := .routes
  condition := .within
  distance := (300 : Float)
  target := .selectedPoint
  blocks := []

/-- The origin as the selected point, a geometry column to test it on, and perhaps a column for
GeoJSON. -/
def pierContext (geojsonField : Option String) : Context FlatDouble :=
  { (Context.empty : Context FlatDouble) with
    serviceIdField := some "id"
    spatialReady := true
    geometryField := some "geom"
    geojsonField
    point := some ⟨(0 : Float), (0 : Float)⟩ }

/-- The run is one over features that are kept apart, and all of it succeeds up to its query. -/
structure PierRuns (geojsonField : Option String) (contract : Contract FlatDouble)
    (plan : Plan FlatDouble) (store : Store FlatDouble) (collection : Json FlatDouble)
    (features : List (Json FlatDouble)) : Prop where
  valid : pierQuery.violations (pierContext geojsonField) = []
  compiled : pierQuery.compile ⟨0, 0⟩ (pierContext geojsonField) = .ok contract
  planned : Plan.ofContract contract (pierContext geojsonField) Settings.default = .ok plan
  loaded : readStore pierFiles (pierContext geojsonField) pierInvocation = .ok store
  read : readFile (R := FlatDouble) pierFiles Json.ofText? "routes.json" = .ok collection
  features_eq : (collection.member? "features").bind Json.items? = some features
  apart : KeepsApart (pierContext geojsonField) features

/-- What a test finds in such a run is there. -/
theorem exists_pierRuns (geojsonField : Option String)
    (test : Store FlatDouble → List (Json FlatDouble) → Bool)
    (hvalid : (pierQuery.violations (pierContext geojsonField)).isEmpty = true)
    (hplan : ((pierQuery.compile ⟨0, 0⟩ (pierContext geojsonField)).toOption.any fun contract =>
      (Plan.ofContract contract (pierContext geojsonField) Settings.default).isOk) = true)
    (htest : ((readStore pierFiles (pierContext geojsonField) pierInvocation).toOption.any
      fun store => (readFile (R := FlatDouble) pierFiles Json.ofText? "routes.json").toOption.any
        fun collection => ((collection.member? "features").bind Json.items?).any fun features =>
          decide (KeepsApart (pierContext geojsonField) features) && test store features) = true) :
    ∃ contract plan store collection features,
      PierRuns geojsonField contract plan store collection features ∧
        test store features = true := by
  obtain ⟨contract, hcontract, hplan⟩ := Option.any_eq_true .. |>.mp hplan
  obtain ⟨plan, hplan⟩ := exists_eq_ok_of_isOk hplan
  obtain ⟨store, hstore, htest⟩ := Option.any_eq_true .. |>.mp htest
  obtain ⟨collection, hcollection, htest⟩ := Option.any_eq_true .. |>.mp htest
  obtain ⟨features, hfeatures, htest⟩ := Option.any_eq_true .. |>.mp htest
  obtain ⟨hapart, htest⟩ := Bool.and_eq_true_iff.mp htest
  exact ⟨contract, plan, store, collection, features,
    ⟨List.isEmpty_iff.mp hvalid, toOption_eq_some_iff.mp hcontract, hplan,
      toOption_eq_some_iff.mp hstore, toOption_eq_some_iff.mp hcollection, hfeatures,
      decide_eq_true_eq.mp hapart⟩, htest⟩

/-- Without a column for GeoJSON, the run lists the pier. -/
theorem resultOn_pier :
    ∃ contract plan store collection features,
      PierRuns none contract plan store collection features ∧
        resultOn store ⟨0, 0⟩ Settings.default pierQuery (pierContext none) =
          .ofIds ["pier"] := by
  obtain ⟨contract, plan, store, collection, features, h, hids⟩ := exists_pierRuns none
    (fun _ features =>
      idsAround (pierContext none) features "id" ⟨(0 : Float), (0 : Float)⟩ (300 : Float)
        .native = ["pier"]) (by decide +kernel) (by decide +kernel) (by decide +kernel)
  refine ⟨contract, plan, store, collection, features, h, ?_⟩
  obtain ⟨idField, p, tier, hid, hp, htier, hresult, -⟩ := resultOn_readStore h.valid rfl rfl rfl
    h.compiled h.planned h.loaded rfl (.inl rfl) h.read h.features_eq h.apart
  obtain rfl := Option.some.inj hid
  obtain rfl := Option.some.inj hp
  obtain rfl := Option.some.inj htier
  rw [← decide_eq_true_eq.mp hids]
  exact hresult (.inr rfl)

/-- With one, it lists nothing, although the pier is at the selected point. -/
theorem resultOn_pier_eq_nil :
    ∃ contract plan store collection features,
      PierRuns (some "geometry") contract plan store collection features ∧
        idsAround (pierContext (some "geometry")) features "id" ⟨(0 : Float), (0 : Float)⟩
          (300 : Float) .native = ["pier"] ∧
        resultOn store ⟨0, 0⟩ Settings.default pierQuery (pierContext (some "geometry")) =
          .ofIds [] := by
  obtain ⟨contract, plan, store, collection, features, h, htest⟩ := exists_pierRuns
    (some "geometry") (fun store features =>
      idsAround (pierContext (some "geometry")) features "id" ⟨(0 : Float), (0 : Float)⟩
        (300 : Float) .native = ["pier"] ∧
      resultOn store ⟨0, 0⟩ Settings.default pierQuery (pierContext (some "geometry")) =
        .ofIds []) (by decide +kernel) (by decide +kernel) (by decide +kernel)
  obtain ⟨hids, hresult⟩ := decide_eq_true_eq.mp htest
  exact ⟨contract, plan, store, collection, features, h, hids, hresult⟩

end CommandLine

end TransitQuery
