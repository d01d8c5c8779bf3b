import ReportQuery.Proofs.Ascending
import ReportQuery.Schema.Descriptor
/-!
# Reading the parts of descriptors

A record is read by the names of its parts and a map by those of its entries, so neither
depends on the order of the members. A data value can be laid out anew in any way that
moves the members of its objects and nothing else (`Layout`), as it is when all members are
put in ascending order (`layout_canonical`). Records without a repeated name have the same
parts then (`Layout.exists_part?`), and maps the same entries (`Layout.map?`).
-/

namespace ReportQuery

namespace Json

variable {α : Type} {name : String} {members : List (String × Json)} {j : Json}
variable {read : Json → Option α} {sorted entries out : Entries α}

/-- What holds of a data value when it holds of its items and members, holds of every one. -/
@[elab_as_elim]
theorem induction {P : Json → Prop} (null : P .null) (bool : ∀ b, P (.bool b))
    (number : ∀ n, P (.number n)) (string : ∀ s, P (.string s))
    (array : ∀ items, (∀ j ∈ items, P j) → P (.array items))
    (object : ∀ members, (∀ m ∈ members, P m.2) → P (.object members)) : (j : Json) → P j
  | .null => null
  | .bool b => bool b
  | .number n => number n
  | .string s => string s
  | .array items => array items fun j _ => induction null bool number string array object j
  | .object members =>
    object members fun m _ => induction null bool number string array object m.2
decreasing_by
  · have hlt := List.sizeOf_lt_of_mem ‹j ∈ items›
    rw [Json.array.sizeOf_spec]
    omega
  · have hlt := Entries.sizeOf_lt_of_mem ‹m ∈ members›
    rw [Json.object.sizeOf_spec]
    omega

/-! ## Parts of records -/

theorem part?_cons_of_ne {n : String} (h : n ≠ name) :
    part? name ((n, j) :: members) = part? name members := by
  rw [part?, List.filter_cons_of_neg (by simpa using h), ← part?]

/-- The first part of its name is the only one. -/
theorem part?_cons_self {part : Option Json}
    (h : part? name ((name, j) :: members) = some part) : part = some j := by
  rw [part?, List.filter_cons_of_pos (by simp)] at h
  split at h
  · next hnil => cases hnil
  · next m hm =>
    obtain ⟨rfl, -⟩ := List.cons.inj hm
    exact (Option.some.inj h).symm
  · cases h

theorem part?_of_nodup (h : (Entries.names members).Nodup) :
    part? name members = some (Entries.find? name members) := by
  induction members with
  | nil => rfl
  | cons m rest ih =>
    obtain ⟨n, j⟩ := m
    obtain ⟨hnew, hrest⟩ := List.nodup_cons.1 h
    rw [Entries.find?]
    split
    · next heq =>
      subst heq
      have hnone : rest.filter (fun m => m.1 = n) = [] := by
        refine List.filter_eq_nil_iff.2 fun m hm hname => hnew ?_
        exact List.mem_map.2 ⟨m, hm, of_decide_eq_true hname⟩
      rw [part?, List.filter_cons_of_pos (by simp), hnone]
    · next hne => rw [part?_cons_of_ne hne, ih hrest]

theorem mem_of_part? (h : part? name members = some (some j)) : (name, j) ∈ members := by
  induction members with
  | nil => cases h
  | cons m rest ih =>
    obtain ⟨n, j'⟩ := m
    by_cases hn : n = name
    · subst hn
      rw [Option.some.inj (part?_cons_self h)]
      exact List.mem_cons_self
    · rw [part?_cons_of_ne hn] at h
      exact List.mem_cons_of_mem _ (ih h)

/-- A part that may be left out has its default or what is read. -/
theorem optional_eq_some {default a : α} {part : Option Json}
    (h : optional default read part = some a) :
    a = default ∨ ∃ j, part = some j ∧ read j = some a := by
  cases part with
  | none => exact .inl (Option.some.inj h).symm
  | some j => exact .inr ⟨j, rfl, h⟩

/-! ## Entries of maps -/

theorem map?_eq_some (h : map? read j = some out) :
    ∃ members, j = .object members ∧ entries? read [] members = some out := by
  cases j with
  | object members => exact ⟨members, rfl, h⟩
  | null | bool _ | number _ | string _ | array _ => cases h

theorem ascending_of_entries? (hsorted : sorted.Ascending)
    (h : entries? read sorted members = some out) : out.Ascending := by
  induction members generalizing sorted with
  | nil =>
    cases h
    exact hsorted
  | cons m rest ih =>
    obtain ⟨a, -, h⟩ := Option.bind_eq_some_iff.1 h
    exact ih hsorted.insert h

/-- **What is read stands in ascending order.** -/
theorem ascending_of_map? (h : map? read j = some out) : out.Ascending := by
  obtain ⟨members, -, h⟩ := map?_eq_some h
  exact ascending_of_entries? Entries.ascending_nil h

/-- What holds of every value that is read holds of all entries. -/
theorem forall_of_entries? {P : α → Prop} (hsorted : ∀ e ∈ sorted, P e.2)
    (hread : ∀ m ∈ members, ∀ a, read m.2 = some a → P a)
    (h : entries? read sorted members = some out) : ∀ e ∈ out, P e.2 := by
  induction members generalizing sorted with
  | nil =>
    cases h
    exact hsorted
  | cons m rest ih =>
    obtain ⟨a, ha, h⟩ := Option.bind_eq_some_iff.1 h
    exact ih (Entries.forall_mem_insert hsorted (hread m List.mem_cons_self a ha))
      (fun m hm => hread m (List.mem_cons_of_mem _ hm)) h

/-- A map that may be left out stands in ascending order. -/
theorem ascending_of_optional {part : Option Json}
    (h : optional [] (map? read) part = some out) : out.Ascending := by
  rcases optional_eq_some h with rfl | ⟨j, -, hread⟩
  · exact Entries.ascending_nil
  · exact ascending_of_map? hread

theorem forall_of_optional {P : α → Prop} {part : Option Json}
    (hread : ∀ j a, read j = some a → P a) (h : optional [] (map? read) part = some out) :
    ∀ e ∈ out, P e.2 := by
  rcases optional_eq_some h with rfl | ⟨j, -, hmap⟩
  · exact List.forall_mem_nil _
  · obtain ⟨members, -, hmembers⟩ := map?_eq_some hmap
    exact forall_of_entries? (List.forall_mem_nil _) (fun m _ => hread m.2) hmembers

/-- Entries that are read back one by one are inserted one by one. -/
theorem entries?_map {write : String × α → Json} (h : ∀ e ∈ entries, read (write e) = some e.2) :
    entries? read sorted (entries.map fun e => (e.1, write e)) =
      some (sorted.insertAll entries) := by
  induction entries generalizing sorted with
  | nil => rfl
  | cons e rest ih =>
    rw [List.map_cons, entries?, h e List.mem_cons_self, Entries.insertAll_cons]
    exact ih fun e he => h e (List.mem_cons_of_mem _ he)

/-! ## The order of members -/

/-- A way to lay out data values anew that moves the members of objects at most, as long as
no name is given twice. -/
structure Layout (form : Json → Json) : Prop where
  string : ∀ s, form (.string s) = .string s
  bool : ∀ b, form (.bool b) = .bool b
  array : ∀ items, form (.array items) = .array (items.map form)
  object : ∀ members, (Entries.names members).Nodup → ∃ members',
    form (.object members) = .object members' ∧
      members'.Perm (members.map fun m => (m.1, form m.2))

theorem layout_id : Layout id where
  string _ := rfl
  bool _ := rfl
  array items := by rw [List.map_id, id]
  object members _ := ⟨members, rfl, by simp⟩

theorem canonicalItems_eq (items : List Json) : canonicalItems items = items.map canonical := by
  induction items with
  | nil => rw [canonicalItems, List.map_nil]
  | cons item items ih => rw [canonicalItems, ih, List.map_cons]

theorem canonicalMembers_eq (sorted : Entries Json) (members : List (String × Json)) :
    canonicalMembers sorted members =
      sorted.insertAll (members.map fun m => (m.1, canonical m.2)) := by
  induction members generalizing sorted with
  | nil => rw [canonicalMembers, List.map_nil, Entries.insertAll, List.foldl_nil]
  | cons m members ih => rw [canonicalMembers, ih, List.map_cons, Entries.insertAll_cons]

/-- **Members in ascending order** are a layout. -/
theorem layout_canonical : Layout canonical where
  string _ := by simp only [canonical]
  bool _ := by simp only [canonical]
  array items := by rw [canonical, canonicalItems_eq]
  object members hnodup := by
    have hnames : (Entries.names ([] ++ members.map fun m => (m.1, canonical m.2))).Nodup := by
      simpa [Entries.names, Function.comp_def] using hnodup
    refine ⟨canonicalMembers [] members, by rw [canonical], ?_⟩
    rw [canonicalMembers_eq]
    exact Entries.insertAll_perm hnames

namespace Layout

variable {form : Json → Json}

/-- **A record keeps its parts.** -/
theorem exists_part? (h : Layout form) (hj : j = .object members)
    (hnodup : (Entries.names members).Nodup) :
    ∃ members', form j = .object members' ∧
      ∀ name, part? name members' = some ((Entries.find? name members).map form) := by
  subst hj
  obtain ⟨members', hmembers', hperm⟩ := h.object members hnodup
  have hnodup' : (Entries.names members').Nodup := by
    rw [Entries.names, (hperm.map Prod.fst).nodup_iff]
    simpa [Entries.names, Function.comp_def] using hnodup
  refine ⟨members', hmembers', fun name => ?_⟩
  rw [part?_of_nodup hnodup', Entries.find?_perm hnodup' hperm,
    Entries.find?_map fun _ value => form value]

/-- **A map keeps its entries**, if each is read back by itself. -/
theorem map? (h : Layout form) (write : α → Json) (hentries : entries.Ascending)
    (hread : ∀ e ∈ entries, read (form (write e.2)) = some e.2) :
    Json.map? read (form (.object (entries.map fun e => (e.1, write e.2)))) = some entries := by
  have hnodup : (Entries.names (entries.map fun e => (e.1, write e.2))).Nodup := by
    simpa [Entries.names, Function.comp_def] using hentries.nodup
  obtain ⟨members, hmembers, hperm⟩ := h.object _ hnodup
  rw [List.map_map] at hperm
  -- the members are those of the same entries in some other order
  obtain ⟨others, rfl, hothers⟩ : ∃ others : Entries α,
      members = others.map (fun e => (e.1, form (write e.2))) ∧ others.Perm entries := by
    have hcomp := List.eq_map_comp_perm fun e : String × α => (e.1, form (write e.2))
    exact (congrFun (congrFun hcomp members) entries).mpr hperm
  have hback : ∀ e ∈ others, read (form (write e.2)) = some e.2 :=
    fun e he => hread e (hothers.mem_iff.1 he)
  rw [hmembers, Json.map?, entries?_map hback, Entries.insertAll_of_perm hentries hothers]

theorem texts? (h : Layout form) (values : List String) :
    Json.texts? (form (.array (values.map .string))) = some values := by
  have hitems : (values.map Json.string).map form = values.map Json.string := by
    rw [List.map_map]
    exact List.map_congr_left fun value _ => h.string value
  rw [h.array, hitems, Json.texts?, List.mapM_map]
  induction values with
  | nil => rfl
  | cons value values ih =>
    rw [List.map_cons, List.map_cons, List.cons.injEq] at hitems
    rw [List.mapM_cons, ih hitems.2]
    rfl

end Layout

end Json

/-! ## Types with fields -/

namespace StructType

open Json

theorem entriesOf?_eq (sorted : List (String × StructType)) (members : List (String × Json)) :
    entriesOf? sorted members = entries? StructType.ofJson? sorted members := by
  induction members generalizing sorted with
  | nil => rw [entriesOf?, entries?]
  | cons m rest ih =>
    rw [entriesOf?, entries?]
    exact congrArg _ (funext fun type => ih _)

/-- A map from names to types is read as any map. -/
theorem mapOf?_eq (j : Json) : mapOf? j = map? StructType.ofJson? j := by
  cases j with
  | object members => rw [mapOf?, map?, entriesOf?_eq]
  | null | bool _ | number _ | string _ | array _ => rw [mapOf?, map?] <;> simp

/-- The nested types are a part as any other. -/
theorem nestedOf?_eq {members : List (String × Json)} {nested : Option Json}
    (h : part? "nested" members = some nested) :
    nestedOf? members = optional [] (map? StructType.ofJson?) nested := by
  induction members with
  | nil =>
    cases h
    rw [nestedOf?]
    rfl
  | cons m rest ih =>
    obtain ⟨n, j⟩ := m
    rw [nestedOf?]
    split
    · next heq =>
      subst heq
      rw [part?_cons_self h, mapOf?_eq]
      rfl
    · next hne =>
      rw [part?_cons_of_ne hne] at h
      exact ih h

/-- **A type is read part by part.** -/
theorem ofJson?_object (members : List (String × Json)) :
    StructType.ofJson? (.object members) = do
      let name ← optional "" text? (← part? "name" members)
      let fields ← optional [] (map? Field.ofJson?) (← part? "fields" members)
      let nested ← optional [] (map? StructType.ofJson?) (← part? "nested" members)
      return ⟨name, fields, nested⟩ := by
  rw [StructType.ofJson?]
  cases hnested : part? "nested" members with
  | none => simp
  | some nested => simp [nestedOf?_eq hnested]

end StructType
end ReportQuery
