import RequestGate.Document.Basic
import RequestGate.Proofs.Json.WellFormed
import RequestGate.Proofs.Success

/-!
# Looking an operation up

A document is asked for the operation of a method and a route, and it is asked for all its
operations. The first looks a path up and then a member of its path item; the second goes through the
paths one by one. In a document whose objects repeat no key the two agree
(`RequestGate.Document.operation?_eq_find?`): the operation that is looked up is the first of all
operations with this method, in any case, and this route. Whatever is compiled from the list of all
operations therefore serves the very operations that are looked up later.
-/

namespace RequestGate

namespace Method

theorem ofName?_eq_some_iff {text : String} {m : Method} : ofName? text = some m ↔ m.name = text := by
  constructor
  · intro h
    simpa using List.find?_some (p := fun m : Method => m.name == text) h
  · rintro rfl
    exact ofName?_name m

/-- The letters of a method's name are small. -/
theorem asciiLower_name (m : Method) : Text.asciiLower m.name = m.name := by
  cases m <;> decide

theorem ofAnyCase?_eq_some_iff {text : String} {m : Method} :
    ofAnyCase? text = some m ↔ Text.eqIgnoreAsciiCase m.name text = true := by
  have hsame : ofAnyCase? text = ofName? (Text.asciiLower text) := by
    refine congrArg (List.find? · all) (funext fun m' => ?_)
    rw [Text.eqIgnoreAsciiCase, asciiLower_name]
  rw [hsame, ofName?_eq_some_iff, Text.eqIgnoreAsciiCase, asciiLower_name, beq_iff_eq]

end Method

namespace Document

variable {root : Json} {document : Document} {operation : Operation} {method route : String}

/-- No route is declared twice, and no path item repeats a member. -/
structure DistinctPaths (document : Document) : Prop where
  routes : Entries.Distinct document.paths
  members : ∀ route pathItem, (route, pathItem) ∈ document.paths →
    Entries.Distinct (pathItem.obj?.getD [])

/-- Normalizing the components leaves the paths alone. -/
theorem get?_normalizeComponents {key : String} (h : key ≠ "components") (root : Json) :
    (normalizeComponents root).get? key = root.get? key := by
  cases root with
  | obj members => exact Entries.get?_modify_of_ne members _ h.symm
  | _ => rfl

theorem paths_of_ofJson (h : ofJson root = .ok document) :
    document.paths = (root.getObj? "paths").getD [] := by
  obtain ⟨-, -, h⟩ := bind_eq_ok_iff.mp h
  split at h
  · simp at h
  · obtain rfl : (⟨normalizeComponents root⟩ : Document) = document := Except.ok.inj h
    rw [paths, Json.getObj?, Json.getObj?, get?_normalizeComponents (by decide)]

/-- **A document that is read from well-formed text declares nothing twice.** -/
theorem distinctPaths_of_ofJson (hroot : root.WellFormed) (h : ofJson root = .ok document) :
    document.DistinctPaths := by
  have hpaths : ∀ value, root.get? "paths" = some value → value.WellFormed := by
    intro value hv
    rw [Json.get?_eq] at hv
    exact hroot.of_mem (Entries.mem_of_get? hv)
  constructor
  · rw [paths_of_ofJson h, Json.getObj?]
    cases hget : root.get? "paths" with
    | none => exact List.nodup_nil
    | some value => exact (hpaths value hget).distinct
  · intro route pathItem hmem
    rw [paths_of_ofJson h, Json.getObj?] at hmem
    cases hget : root.get? "paths" with
    | none => simp [hget] at hmem
    | some value =>
      rw [hget] at hmem
      exact ((hpaths value hget).of_mem hmem).distinct

/-! ### The list of operations and the look-up -/

/-- What is listed: the objects under the name of a method in the path items. -/
theorem mem_operations_iff :
    operation ∈ document.operations ↔
      (operation.route, operation.pathItem) ∈ document.paths ∧
      (operation.method.name, operation.declaration) ∈ operation.pathItem.obj?.getD [] ∧
      operation.declaration.isObj = true := by
  rw [operations, List.mem_flatMap]
  constructor
  · rintro ⟨⟨route, pathItem⟩, hpath, hmem⟩
    obtain ⟨⟨name, declaration⟩, hdecl, hsome⟩ := List.mem_filterMap.mp hmem
    obtain ⟨m, hm, hop⟩ := Option.bind_eq_some_iff.mp hsome
    obtain rfl := Method.ofName?_eq_some_iff.mp hm
    split at hop
    · rename_i hobj
      obtain rfl := Option.some.inj hop
      exact ⟨hpath, hdecl, hobj⟩
    · simp at hop
  · rintro ⟨hpath, hdecl, hobj⟩
    refine ⟨_, hpath, List.mem_filterMap.mpr ⟨_, hdecl, ?_⟩⟩
    simp [Method.ofName?_name, hobj]

/-- What is looked up is listed. -/
theorem mem_of_operation? (hop : document.operation? method route = some operation) :
    operation ∈ document.operations ∧ operation.route = route ∧
      Text.eqIgnoreAsciiCase operation.method.name method = true := by
  obtain ⟨pathItem, hpath, hop⟩ := Option.bind_eq_some_iff.mp hop
  obtain ⟨m, hm, hop⟩ := Option.bind_eq_some_iff.mp hop
  obtain ⟨declaration, hdecl, hop⟩ := Option.bind_eq_some_iff.mp hop
  obtain rfl := Option.some.inj hop
  obtain ⟨hget, hobj⟩ := Option.filter_eq_some_iff.mp hdecl
  rw [Json.get?_eq] at hget
  exact ⟨mem_operations_iff.mpr ⟨Entries.mem_of_get? hpath, Entries.mem_of_get? hget, hobj⟩, rfl,
    Method.ofAnyCase?_eq_some_iff.mp hm⟩

/-- **What is looked up is what is listed** under the route and, in any case, the method. -/
theorem operation?_eq_some_iff (h : document.DistinctPaths) :
    document.operation? method route = some operation ↔
      operation ∈ document.operations ∧ operation.route = route ∧
        Text.eqIgnoreAsciiCase operation.method.name method = true := by
  refine ⟨mem_of_operation?, ?_⟩
  rintro ⟨hmem, rfl, hm⟩
  obtain ⟨hpath, hdecl, hobj⟩ := mem_operations_iff.mp hmem
  have hget := Entries.get?_of_mem h.routes hpath
  have hmember := Entries.get?_of_mem (h.members _ _ hpath) hdecl
  rw [← Json.get?_eq] at hmember
  rw [operation?, hget, Method.ofAnyCase?_eq_some_iff.mpr hm]
  simp [hmember, Option.filter_some, hobj]

/-- The look-up is a search through the list. -/
theorem operation?_eq_find? (h : document.DistinctPaths) (method route : String) :
    document.operation? method route = document.operations.find? fun operation =>
      Text.eqIgnoreAsciiCase operation.method.name method && operation.route == route := by
  cases hfind : document.operations.find? _ with
  | some operation =>
    have hkind := List.find?_some hfind
    rw [Bool.and_eq_true, beq_iff_eq] at hkind
    exact (operation?_eq_some_iff h).mpr
      ⟨List.mem_of_find?_eq_some hfind, hkind.2, hkind.1⟩
  | none =>
    by_contra hne
    obtain ⟨operation, hop⟩ := Option.ne_none_iff_exists'.mp hne
    obtain ⟨hmem, hroute, hm⟩ := (operation?_eq_some_iff h).mp hop
    have hnot := List.find?_eq_none.mp hfind operation hmem
    simp [hroute, hm] at hnot

end Document

end RequestGate
