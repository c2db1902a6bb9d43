import Provision.Deployment.Formatting
import Provision.Proofs.Json.Lookup
import Provision.Proofs.Json.Parsed

/-!
What formatting keeps.

`Formatting.reorder` loses no member and invents none (`perm_reorder`), puts the well-known
members first and all others behind them as they were (`names_reorder`), and does nothing to
members that it has ordered (`reorder_reorder`). The indented form of a template is read as the
members in this order, so formatting it again changes nothing; the indented form of parameters
is read as a document with these very parameters inside, which takes one level more than they
do. Both are made of exactly the texts of objects: `formatted`.
-/

namespace Provision.Formatting

/-! ### The order of a template -/

section Order

variable {members : Members}

/-- Looking names up one by one leaves out those that are not there. -/
theorem names_filterMap_find? (members : Members) (order : List String) :
    Members.names (order.filterMap fun name => (members.find? name).map (name, ·))
      = order.filter (members.names.contains ·) := by
  induction order with
  | nil => rfl
  | cons name order ih =>
      cases found : members.find? name with
      | none =>
          have absent : ¬ members.names.contains name := by
            simpa using Members.find?_eq_none_iff.mp found
          rw [List.filterMap_cons_none (by rw [found]; rfl), List.filter_cons_of_neg absent, ih]
      | some value =>
          have named : name ∈ members.names := List.mem_map_of_mem (Members.mem_of_find? found)
          have present : members.names.contains name := by simpa using named
          rw [List.filterMap_cons_some (by rw [found]; rfl), List.filter_cons_of_pos present, ← ih]
          rfl

/-- The listed names that occur, in the order of the list, then all others in their own. -/
theorem names_reorder (members : Members) :
    (reorder members).names = memberOrder.filter (members.names.contains ·)
      ++ members.names.filter (!memberOrder.contains ·) := by
  have others : members.names.filter (!memberOrder.contains ·)
      = Members.names (members.filter (!memberOrder.contains ·.1)) := List.filter_map
  rw [reorder, Members.names_append, names_filterMap_find?, others]

theorem nodup_names_reorder (distinct : members.names.Nodup) :
    (reorder members).names.Nodup := by
  have order : memberOrder.Nodup := by decide
  rw [names_reorder]
  refine List.nodup_append.mpr ⟨order.filter _, distinct.filter _, ?_⟩
  rintro name listed other unlisted rfl
  have inOrder := (List.mem_filter.mp listed).1
  have outside := (List.mem_filter.mp unlisted).2
  simp [inOrder] at outside

theorem mem_reorder (distinct : members.names.Nodup) {member : String × Json} :
    member ∈ reorder members ↔ member ∈ members := by
  obtain ⟨name, value⟩ := member
  rw [reorder, List.mem_append, List.mem_filterMap, List.mem_filter]
  constructor
  · rintro (⟨other, -, looked⟩ | ⟨mem, -⟩)
    · obtain ⟨v, found, same⟩ := Option.map_eq_some_iff.mp looked
      exact same ▸ Members.mem_of_find? found
    · exact mem
  · intro mem
    by_cases listed : name ∈ memberOrder
    · exact .inl ⟨name, listed, by rw [Members.find?_of_mem distinct mem]; rfl⟩
    · exact .inr ⟨mem, by simpa using listed⟩

theorem forall_reorder (distinct : members.names.Nodup) {P : String × Json → Prop}
    (each : ∀ member ∈ members, P member) : ∀ member ∈ reorder members, P member := by
  intro member mem
  exact each member ((mem_reorder distinct).mp mem)

/-- Reordering loses, repeats and changes nothing. -/
theorem perm_reorder (distinct : members.names.Nodup) : (reorder members).Perm members :=
  (List.perm_ext_iff_of_nodup (nodup_names_reorder distinct).of_map distinct.of_map).mpr
    fun _ => mem_reorder distinct

theorem find?_reorder (distinct : members.names.Nodup) (name : String) :
    (reorder members).find? name = members.find? name := by
  cases found : members.find? name with
  | none =>
      refine Members.find?_eq_none_iff.mpr ?_
      rw [Members.names, ((perm_reorder distinct).map Prod.fst).mem_iff]
      exact Members.find?_eq_none_iff.mp found
  | some value =>
      exact Members.find?_of_mem (nodup_names_reorder distinct)
        ((mem_reorder distinct).mpr (Members.mem_of_find? found))

/-- None of the members that come first is among the others. -/
theorem filter_others_reorder (members : Members) :
    (reorder members).filter (!memberOrder.contains ·.1)
      = members.filter (!memberOrder.contains ·.1) := by
  have first : (memberOrder.filterMap fun name => (members.find? name).map (name, ·)).filter
      (!memberOrder.contains ·.1) = [] := by
    refine List.filter_eq_nil_iff.mpr ?_
    intro member mem
    obtain ⟨name, inOrder, looked⟩ := List.mem_filterMap.mp mem
    obtain ⟨value, -, rfl⟩ := Option.map_eq_some_iff.mp looked
    simpa using inOrder
  rw [reorder, List.filter_append, first, List.nil_append, List.filter_filter]
  simp only [Bool.and_self]

/-- Members in this order stay as they are. -/
theorem reorder_reorder (distinct : members.names.Nodup) :
    reorder (reorder members) = reorder members := by
  have listed : memberOrder.filterMap (fun name => ((reorder members).find? name).map (name, ·))
      = memberOrder.filterMap fun name => (members.find? name).map (name, ·) := by
    simp only [find?_reorder distinct]
  calc reorder (reorder members)
      = memberOrder.filterMap (fun name => ((reorder members).find? name).map (name, ·))
          ++ (reorder members).filter (!memberOrder.contains ·.1) := rfl
    _ = memberOrder.filterMap (fun name => (members.find? name).map (name, ·))
          ++ members.filter (!memberOrder.contains ·.1) := by rw [listed, filter_others_reorder]
    _ = reorder members := rfl

end Order

/-! ### Objects as texts -/

section Texts

variable {members : Members} {payload text : String}

theorem parseObject_of_parse (read : Json.parse text = .ok (.object members)) :
    parseObject payload text = .ok members := by
  rw [parseObject, read]

/-- Any other text is refused, under the name of the payload. -/
theorem exists_parseObject_eq_error
    (other : ¬ ∃ members, Json.parse text = .ok (.object members)) :
    ∃ message, ∀ payload, parseObject payload text = .error (.format payload message) := by
  unfold parseObject
  split
  · next members read => exact absurd ⟨members, read⟩ other
  · exact ⟨_, fun _ => rfl⟩
  · exact ⟨_, fun _ => rfl⟩

theorem template_of_parse (read : Json.parse text = .ok (.object members)) :
    template text = .ok ((Json.object (reorder members)).pretty ++ "\n") := by
  rw [template, parseObject_of_parse read]
  rfl

theorem parameters_of_parse (read : Json.parse text = .ok (.object members)) :
    parameters text = .ok ((parametersDocument members).pretty ++ "\n") := by
  rw [parameters, parseObject_of_parse read]
  rfl

variable {levels : Nat}

/-- The members of an object that is read are read back in the order of a template. -/
theorem parse_reorder (read : Json.parse text = .ok (.object members))
    (numbers : (Json.object members).integral) :
    Json.parse ((Json.object (reorder members)).pretty ++ "\n")
      = .ok (.object (reorder members)) := by
  obtain ⟨distinct, bound⟩ := Json.wellRead_of_parse read
  obtain ⟨names, inner⟩ := Json.distinctNames_object_iff.mp distinct
  have bounds := Json.nestingMembers_le_iff.mp (Nat.le_of_succ_le_succ bound)
  have distinct : (Json.object (reorder members)).distinctNames :=
    Json.distinctNames_object_iff.mpr ⟨nodup_names_reorder names, forall_reorder names inner⟩
  have bound : (Json.object (reorder members)).nesting ≤ Json.Reader.maxLevels :=
    Nat.succ_le_succ (Json.nestingMembers_le_iff.mpr (forall_reorder names bounds))
  have integral : (Json.object (reorder members)).integral :=
    Json.integral_object_iff.mpr (forall_reorder names (Json.integral_object_iff.mp numbers))
  have reread := Json.parse_pretty_line_reread distinct bound
  rwa [Json.reread_of_integral integral] at reread

/-- The document of parameters is read back where one more level is allowed than the
parameters have. -/
theorem parseWithin_parametersDocument (distinct : (Json.object members).distinctNames)
    (numbers : (Json.object members).integral)
    (room : (Json.object members).nesting < levels) :
    Json.parseWithin levels ((parametersDocument members).pretty ++ "\n")
      = .ok (parametersDocument members) := by
  have names : (parametersDocument members).distinctNames := by
    refine Json.distinctNames_object_iff.mpr ⟨of_decide_eq_true rfl, ?_⟩
    simp only [List.forall_mem_cons]
    exact ⟨rfl, rfl, distinct, nofun⟩
  have integral : (parametersDocument members).integral := by
    refine Json.integral_object_iff.mpr ?_
    simp only [List.forall_mem_cons]
    exact ⟨rfl, rfl, numbers, nofun⟩
  have bound : (parametersDocument members).nesting ≤ levels := by
    refine Json.nesting_object_le_iff.mpr ⟨levels - 1, by omega, ?_⟩
    simp only [List.forall_mem_cons]
    exact ⟨Nat.zero_le _, Nat.zero_le _, Nat.le_sub_one_of_lt room, nofun⟩
  have reread := Json.parseWithin_pretty_line_reread names bound
  rwa [Json.reread_of_integral integral] at reread

end Texts

/-! ### What is read from a formatted text -/

/-- The same members as they stand in a template: the listed ones first. -/
structure Reordered (members kept : Members) : Prop where
  perm : kept.Perm members
  names : kept.names = memberOrder.filter (members.names.contains ·)
    ++ members.names.filter (!memberOrder.contains ·)

/-- A text that is read as these members in the order of a template, and that formatting leaves
as it is. -/
structure TemplateOf (members : Members) (output : String) : Prop where
  reads : ∃ kept, Json.parse output = .ok (.object kept) ∧ Reordered members kept
  stable : template output = .ok output

/-- A text that is read as a document around these parameters, by any reader that allows one
level more than they have. -/
structure ParametersOf (members : Members) (output : String) : Prop where
  reads : ∃ document, document.member? "parameters" = some (.object members) ∧
    ∀ levels, (Json.object members).nesting < levels →
      Json.parseWithin levels output = .ok document

theorem templateOf_of_parse {members : Members} {text : String}
    (read : Json.parse text = .ok (.object members))
    (numbers : (Json.object members).integral) :
    TemplateOf members ((Json.object (reorder members)).pretty ++ "\n") := by
  have names := (Json.distinctNames_object_iff.mp (Json.wellRead_of_parse read).distinct).1
  have reread := parse_reorder read numbers
  constructor
  · exact ⟨_, reread, perm_reorder names, names_reorder members⟩
  · rw [template_of_parse reread, reorder_reorder names]

theorem parametersOf_of_parse {members : Members} {text : String}
    (read : Json.parse text = .ok (.object members))
    (numbers : (Json.object members).integral) :
    ParametersOf members ((parametersDocument members).pretty ++ "\n") := by
  have distinct := (Json.wellRead_of_parse read).distinct
  refine ⟨parametersDocument members, rfl, ?_⟩
  intro levels room
  exact parseWithin_parametersDocument distinct numbers room

/-- **Formatting keeps the content and is stable.** A text of an object whose numbers are
integers is formatted both ways; the template is read as the same members in the order of
templates, and is what formatting it gives; the parameters are read inside a document of their
own. Every other text is refused. -/
theorem formatted (text : String)
    (numbers : ∀ value, Json.parse text = .ok value → value.integral) :
    (∀ members, Json.parse text = .ok (.object members) →
      ∃ first second, template text = .ok first ∧ TemplateOf members first ∧
        parameters text = .ok second ∧ ParametersOf members second) ∧
    ((¬ ∃ members, Json.parse text = .ok (.object members)) →
      ∃ message, template text = .error (.format "template" message) ∧
        parameters text = .error (.format "template parameters" message)) := by
  constructor
  · intro members read
    exact ⟨_, _, template_of_parse read, templateOf_of_parse read (numbers _ read),
      parameters_of_parse read, parametersOf_of_parse read (numbers _ read)⟩
  · intro other
    obtain ⟨message, refused⟩ := exists_parseObject_eq_error other
    refine ⟨message, ?_, ?_⟩
    · rw [template, refused]
      rfl
    · rw [parameters, refused]
      rfl

/-- A template whose first member stands last. -/
theorem formatted_disordered :
    let text := "\x7b\"outputs\":\x7b\"b\":-1,\"a\":1\x7d,\"own\":[],\"$schema\":\"s\"\x7d"
    let members : Members :=
      [ ("outputs", .object
          [ ("b", .number (.integer (-1) (by decide))),
            ("a", .number (.integer 1 (by decide))) ]),
        ("own", .array []),
        ("$schema", .string "s") ]
    (∀ value, Json.parse text = .ok value → value.integral) ∧
      Json.parse text = .ok (.object members) ∧
        ∃ first second, template text = .ok first ∧ TemplateOf members first ∧
          parameters text = .ok second ∧ ParametersOf members second := by
  intro text members
  have read : Json.parse text = .ok (.object members) := by
    unfold text members
    rfl
  have numbers : ∀ value, Json.parse text = .ok value → value.integral := by
    intro value same
    obtain rfl := Except.ok.inj (read.symm.trans same)
    rfl
  exact ⟨numbers, read, (formatted text numbers).1 members read⟩

end Provision.Formatting
