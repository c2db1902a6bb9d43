import Provision.Proofs.Deployment.PoolNames

/-!
References to parameters in the expressions of a template.

An expression refers to a parameter by `parameters('name')`. `RefersTo` reads a text as it stands:
behind every `parameters('` there is a further quote, and what stands before the first such is one
of some names. Quotes part a text into pieces (`refersTo_append_cons_iff`), so whether an
expression refers to declared parameters is seen from its pieces.

The names of agent pools are put into expressions without regard to quotes. If each of them is
`Quotable`, everything that is referred to is declared. A name with a quote breaks the references to
the parameters of its own pool, and one that ends in `parameters(` opens a reference that is never
closed: `references_declared`, `not_references_declared_quote`.
-/

namespace Provision

/-! ### Texts that refer to names -/

/-- What a reference starts with, up to its quote. -/
def opening : List Char := "parameters(".toList

def reference : List Char := opening ++ ['\'']

/-- A name of the list, and a quote behind it. -/
def Named (names : List String) (text : List Char) : Prop :=
  ∃ name ∈ names, '\'' ∉ name.toList ∧ ∃ rest, text = name.toList ++ '\'' :: rest

/-- Behind the start of every reference, up to the next quote, stands a name of the list. -/
def RefersTo (names : List String) (text : List Char) : Prop :=
  ∀ before after, text = before ++ reference ++ after → Named names after

section Texts

variable {names names' : List String} {front rest text : List Char}

/-- A text is parted at its first quote in one way. -/
theorem eq_of_first_quote {front' rest' : List Char} (plain : '\'' ∉ front)
    (plain' : '\'' ∉ front') (same : front ++ '\'' :: rest = front' ++ '\'' :: rest') :
    front = front' ∧ rest = rest' := by
  induction front generalizing front' with
  | nil =>
      cases front' with
      | nil => exact ⟨rfl, (List.cons.inj same).2⟩
      | cons c front' =>
          obtain ⟨rfl, -⟩ := List.cons.inj same
          exact absurd List.mem_cons_self plain'
  | cons c front ih =>
      cases front' with
      | nil =>
          obtain ⟨rfl, -⟩ := List.cons.inj same
          exact absurd List.mem_cons_self plain
      | cons d front' =>
          obtain ⟨rfl, behind⟩ := List.cons.inj same
          obtain ⟨rfl, rfl⟩ := ih (List.not_mem_of_not_mem_cons plain)
            (List.not_mem_of_not_mem_cons plain') behind
          exact ⟨rfl, rfl⟩

theorem reference_append (text : List Char) : reference ++ text = opening ++ '\'' :: text :=
  List.append_assoc _ _ _

theorem named_append_cons_iff (plain : '\'' ∉ front) :
    Named names (front ++ '\'' :: rest) ↔ String.ofList front ∈ names := by
  constructor
  · rintro ⟨name, mem, plain', rest', same⟩
    obtain ⟨rfl, -⟩ := eq_of_first_quote plain plain' same
    rwa [String.ofList_toList]
  · intro mem
    refine ⟨_, mem, ?_, rest, ?_⟩
    · rwa [String.toList_ofList]
    · rw [String.toList_ofList]

theorem not_named_of_notMem (plain : '\'' ∉ text) : ¬ Named names text := by
  rintro ⟨name, -, -, rest, rfl⟩
  exact plain (List.mem_append_right _ List.mem_cons_self)

theorem Named.mono (subset : names ⊆ names') (named : Named names text) : Named names' text := by
  obtain ⟨name, mem, rest⟩ := named
  exact ⟨name, subset mem, rest⟩

theorem RefersTo.mono (subset : names ⊆ names') (refers : RefersTo names text) :
    RefersTo names' text :=
  fun before after same => (refers before after same).mono subset

/-- A reference has a quote. -/
theorem refersTo_of_notMem (plain : '\'' ∉ text) : RefersTo names text := by
  rintro before after rfl
  rw [List.append_assoc, reference_append] at plain
  exact absurd (List.mem_append_right _ (List.mem_append_right _ List.mem_cons_self)) plain

theorem refersTo_of_forall_notMem {texts : List String}
    (plain : ∀ text ∈ texts, '\'' ∉ text.toList) : ∀ text ∈ texts, RefersTo names text.toList :=
  fun text mem => refersTo_of_notMem (plain text mem)

/-- Before the first quote there is the start of a reference, or nothing that matters. -/
theorem refersTo_append_cons_iff (plain : '\'' ∉ front) :
    RefersTo names (front ++ '\'' :: rest) ↔
      (opening <:+ front → Named names rest) ∧ RefersTo names rest := by
  constructor
  · intro refers
    constructor
    · rintro ⟨before, rfl⟩
      exact refers before rest (by simp [reference_append])
    · rintro before after rfl
      exact refers (front ++ '\'' :: before) after (by simp)
  · rintro ⟨first, others⟩ before after same
    rw [List.append_assoc, reference_append, ← List.append_assoc] at same
    by_cases quoted : '\'' ∈ before
    · -- the reference starts behind the first quote
      obtain ⟨front', before, rfl, plain'⟩ := List.eq_append_cons_of_mem quoted
      rw [List.append_assoc, List.append_assoc, List.cons_append] at same
      obtain ⟨-, rfl⟩ := eq_of_first_quote plain plain' same
      exact others before after (by simp [reference_append])
    · -- the first quote is that of the reference
      have plain' : '\'' ∉ before ++ opening :=
        List.not_mem_append quoted (by decide)
      obtain ⟨rfl, rfl⟩ := eq_of_first_quote plain plain' same
      exact first (List.suffix_append _ _)

/-! ### Texts that can be evaluated -/

theorem named_iff : Named names text ↔
    '\'' ∈ text ∧ String.ofList (text.takeWhile (· ≠ '\'')) ∈ names := by
  by_cases quoted : '\'' ∈ text
  · obtain ⟨front, rest, rfl, plain⟩ := List.eq_append_cons_of_mem quoted
    have all : ∀ c ∈ front, decide (c ≠ '\'') = true := by
      intro c mem
      exact decide_eq_true (fun same => plain (same ▸ mem))
    rw [named_append_cons_iff plain, List.takeWhile_append_of_pos all]
    simp
  · exact iff_of_false (not_named_of_notMem quoted) (fun named => quoted named.1)

instance (names : List String) (text : List Char) : Decidable (Named names text) :=
  decidable_of_iff _ named_iff.symm

/-- A reference starts with the text, or behind its first character. -/
theorem refersTo_cons_iff {c : Char} : RefersTo names (c :: text) ↔
    (reference <+: c :: text → Named names ((c :: text).drop reference.length)) ∧
      RefersTo names text := by
  constructor
  · intro refers
    constructor
    · rintro ⟨after, same⟩
      rw [← same, List.drop_left]
      exact refers [] after same.symm
    · rintro before after rfl
      exact refers (c :: before) after rfl
  · rintro ⟨first, others⟩ before after same
    cases before with
    | nil =>
        have named := first ⟨after, same.symm⟩
        rwa [same, List.nil_append, List.drop_left] at named
    | cons d before =>
        obtain ⟨rfl, behind⟩ := List.cons.inj same
        exact others before after behind

/-- Whether a text refers to names is found by looking at every place in it. -/
def decideRefersTo (names : List String) : (text : List Char) → Decidable (RefersTo names text)
  | [] => isTrue (refersTo_of_notMem List.not_mem_nil)
  | _ :: text =>
      have := decideRefersTo names text
      decidable_of_iff _ refersTo_cons_iff.symm

instance (names : List String) (text : List Char) : Decidable (RefersTo names text) :=
  decideRefersTo names text

end Texts

example : RefersTo ["a"] "parameters('a')".toList ∧ ¬ RefersTo ["a"] "parameters('a)".toList := by
  decide

/-! ### Texts of a value -/

namespace Json

mutual

/-- The texts in a value: strings, and the names of members. -/
def texts : Json → List String
  | .string text => [text]
  | .array items => textsOfItems items
  | .object members => textsOfMembers members
  | _ => []

def textsOfItems : List Json → List String
  | [] => []
  | item :: items => texts item ++ textsOfItems items

def textsOfMembers : List (String × Json) → List String
  | [] => []
  | (name, value) :: members => name :: texts value ++ textsOfMembers members

end

theorem textsOfItems_eq (items : List Json) : textsOfItems items = items.flatMap texts := by
  induction items with
  | nil => rfl
  | cons item items ih => rw [textsOfItems, ih, List.flatMap_cons]

theorem textsOfMembers_eq (members : Members) :
    textsOfMembers members = members.flatMap fun member => member.1 :: member.2.texts := by
  induction members with
  | nil => rfl
  | cons member members ih => rw [textsOfMembers, ih, List.flatMap_cons]

/-- Every text in a value refers to some names. -/
def RefersTo (value : Json) (names : List String) : Prop :=
  ∀ text ∈ value.texts, Provision.RefersTo names text.toList

instance (value : Json) (names : List String) : Decidable (value.RefersTo names) := by
  unfold RefersTo; infer_instance

variable {value : Json} {names names' : List String}

theorem RefersTo.mono (subset : names ⊆ names') (refers : value.RefersTo names) :
    value.RefersTo names' :=
  fun text mem => (refers text mem).mono subset

theorem refersTo_string_iff {text : String} :
    (string text).RefersTo names ↔ Provision.RefersTo names text.toList :=
  List.forall_mem_singleton

theorem refersTo_array_iff {items : List Json} :
    (array items).RefersTo names ↔ ∀ item ∈ items, item.RefersTo names := by
  unfold RefersTo
  rw [texts, textsOfItems_eq]
  exact List.forall_mem_flatMap

theorem refersTo_object_iff {members : Members} :
    (object members).RefersTo names ↔ ∀ member ∈ members,
      Provision.RefersTo names member.1.toList ∧ member.2.RefersTo names := by
  unfold RefersTo
  rw [texts, textsOfMembers_eq, List.forall_mem_flatMap]
  simp only [List.forall_mem_cons]

end Json

/-! ### Expressions of a template -/

/-- A name that can stand between quotes: it has no quote, and does not end as a reference
starts. -/
def Quotable (name : String) : Prop := '\'' ∉ name.toList ∧ ¬ opening <:+ name.toList

instance (name : String) : Decidable (Quotable name) := by
  unfold Quotable; infer_instance

namespace Template

section Expressions

variable {names : List String} {name : String} {pool : AgentPool} {text : List Char}

/-- A reference to one parameter. -/
theorem refersTo_parameter_iff (plain : '\'' ∉ name.toList) :
    RefersTo names s!"[parameters('{name}')]".toList ↔
      name ∈ names ∧ ¬ opening <:+ name.toList := by
  have pieces : s!"[parameters('{name}')]".toList
      = "[parameters(".toList ++ '\'' :: (name.toList ++ '\'' :: ")]".toList) := by
    rw [String.toList_append, String.toList_append, List.append_assoc]
    rfl
  have starts : opening <:+ "[parameters(".toList := by decide
  have plainStart : '\'' ∉ "[parameters(".toList := by decide
  have plainEnd : '\'' ∉ ")]".toList := by decide
  rw [pieces, refersTo_append_cons_iff plainStart, refersTo_append_cons_iff plain,
    named_append_cons_iff plain, String.ofList_toList]
  constructor
  · rintro ⟨named, unopened, -⟩
    exact ⟨named starts, fun ends => not_named_of_notMem plainEnd (unopened ends)⟩
  · rintro ⟨mem, unopened⟩
    exact ⟨fun _ => mem, fun ends => absurd ends unopened, refersTo_of_notMem plainEnd⟩

/-- An expression that puts a quoted text behind the DNS prefix. -/
def behindPrefix (text : String) : String := "[concat(parameters('dnsNamePrefix'), '" ++ text

theorem behindPrefix_poolName (name rest : String) :
    "[concat(parameters('dnsNamePrefix'), '-" ++ name ++ rest
      = behindPrefix ("-" ++ name ++ rest) := by
  have front : "[concat(parameters('dnsNamePrefix'), '-"
      = "[concat(parameters('dnsNamePrefix'), '" ++ "-" := rfl
  rw [front]
  unfold behindPrefix
  simp only [String.append_assoc]

theorem refersTo_behindPrefix_iff {text : String} :
    RefersTo names (behindPrefix text).toList ↔
      "dnsNamePrefix" ∈ names ∧ RefersTo names text.toList := by
  have pieces : (behindPrefix text).toList = "[concat(parameters(".toList
      ++ '\'' :: ("dnsNamePrefix".toList ++ '\'' :: ("), ".toList ++ '\'' :: text.toList)) := by
    have front : "[concat(parameters('dnsNamePrefix'), '".toList = "[concat(parameters(".toList
        ++ '\'' :: ("dnsNamePrefix".toList ++ '\'' :: ("), ".toList ++ ['\''])) := by decide
    unfold behindPrefix
    rw [String.toList_append, front]
    simp only [List.append_assoc, List.cons_append, List.nil_append]
  have starts : opening <:+ "[concat(parameters(".toList := by decide
  have first : '\'' ∉ "[concat(parameters(".toList := by decide
  have second : '\'' ∉ "dnsNamePrefix".toList := by decide
  have third : '\'' ∉ "), ".toList := by decide
  rw [pieces, refersTo_append_cons_iff first, refersTo_append_cons_iff second,
    refersTo_append_cons_iff third, named_append_cons_iff second, String.ofList_toList]
  constructor
  · rintro ⟨named, -, -, refers⟩
    exact ⟨named starts, refers⟩
  · rintro ⟨mem, refers⟩
    exact ⟨fun _ => mem, fun ends => absurd ends (by decide),
      fun ends => absurd ends (by decide), refers⟩

/-- What ends as a reference starts has a bracket at its end. -/
theorem getLast?_of_opening_suffix (ends : opening <:+ text) : text.getLast? = some '(' := by
  obtain ⟨front, rfl⟩ := ends
  rw [List.getLast?_append]
  rfl

theorem not_opening_suffix_append {front back : List Char}
    (ends : back.getLast?.any (· ≠ '(') = true) : ¬ opening <:+ front ++ back := by
  intro opens
  have bracket := getLast?_of_opening_suffix opens
  obtain ⟨last, same, other⟩ := (Option.any_eq_true _ _).mp ends
  rw [List.getLast?_append, same, Option.some_or] at bracket
  exact of_decide_eq_true other (Option.some.inj bracket)

theorem not_mem_hyphenated (plain : '\'' ∉ name.toList) : '\'' ∉ '-' :: name.toList :=
  List.not_mem_cons_of_ne_of_not_mem (by decide) plain

/-- The name of a pool among the resources. -/
theorem refersTo_poolName_iff (plain : '\'' ∉ name.toList) :
    RefersTo names s!"[concat(parameters('dnsNamePrefix'), '-{name}')]".toList ↔
      "dnsNamePrefix" ∈ names ∧ ¬ opening <:+ name.toList := by
  have expression : s!"[concat(parameters('dnsNamePrefix'), '-{name}')]"
      = behindPrefix ("-" ++ name ++ "')]") := behindPrefix_poolName name "')]"
  have pieces : ("-" ++ name ++ "')]").toList = ('-' :: name.toList) ++ '\'' :: ")]".toList := by
    rw [String.toList_append, String.toList_append]
    rfl
  have plainEnd : '\'' ∉ ")]".toList := by decide
  have ends : opening <:+ '-' :: name.toList ↔ opening <:+ name.toList := by
    rw [List.suffix_cons_iff]
    refine or_iff_right ?_
    intro same
    exact absurd (List.cons.inj same).1 (by decide)
  rw [expression, refersTo_behindPrefix_iff, pieces,
    refersTo_append_cons_iff (not_mem_hyphenated plain), ends]
  refine and_congr_right fun _ => ?_
  constructor
  · rintro ⟨named, -⟩ opens
    exact not_named_of_notMem plainEnd (named opens)
  · intro unopened
    exact ⟨fun opens => absurd opens unopened, refersTo_of_notMem plainEnd⟩

/-- The domain name of a pool among the outputs. -/
theorem refersTo_poolDomain (plain : '\'' ∉ name.toList) (listed : "dnsNamePrefix" ∈ names) :
    RefersTo names s!"[concat(parameters('dnsNamePrefix'), '-{name}.', resourceGroup().location, '.cloudapp.azure.com')]".toList := by
  let behind := ".', resourceGroup().location, '.cloudapp.azure.com')]"
  have expression : s!"[concat(parameters('dnsNamePrefix'), '-{name}.', resourceGroup().location, '.cloudapp.azure.com')]"
      = behindPrefix ("-" ++ name ++ behind) := behindPrefix_poolName name behind
  have pieces : ("-" ++ name ++ behind).toList = (('-' :: name.toList) ++ ['.'])
      ++ '\'' :: ", resourceGroup().location, '.cloudapp.azure.com')]".toList := by
    have hyphen : "-".toList = ['-'] := rfl
    have back : behind.toList
        = '.' :: '\'' :: ", resourceGroup().location, '.cloudapp.azure.com')]".toList := by decide
    rw [String.toList_append, String.toList_append, hyphen, back]
    simp only [List.cons_append, List.nil_append, List.append_assoc]
  have plainFront : '\'' ∉ ('-' :: name.toList) ++ ['.'] :=
    List.not_mem_append (not_mem_hyphenated plain) (by decide)
  have rest : RefersTo [] ", resourceGroup().location, '.cloudapp.azure.com')]".toList := by decide
  rw [expression, refersTo_behindPrefix_iff, pieces, refersTo_append_cons_iff plainFront]
  refine ⟨listed, ?_, rest.mono (List.nil_subset _)⟩
  intro opens
  exact absurd opens (not_opening_suffix_append (by decide))

/-- A parameter whose name ends as those of pools do. -/
theorem refersTo_poolParameter_iff {ending : String} (plain : '\'' ∉ name.toList)
    (plainEnding : '\'' ∉ ending.toList)
    (ends : ending.toList.getLast?.any (· ≠ '(') = true) :
    RefersTo names s!"[parameters('{name ++ ending}')]".toList ↔ name ++ ending ∈ names := by
  have whole : '\'' ∉ (name ++ ending).toList := by
    rw [String.toList_append]
    exact List.not_mem_append plain plainEnding
  rw [refersTo_parameter_iff whole, String.toList_append]
  exact and_iff_left (not_opening_suffix_append ends)

/-- Behind the start of a reference to one parameter stands its name. -/
theorem named_of_refersTo_parameter (refers : RefersTo names s!"[parameters('{name}')]".toList) :
    Named names (name.toList ++ "')]".toList) := by
  refine refers ['['] _ ?_
  have start : "[parameters('".toList = '[' :: reference := by decide
  have expression : s!"[parameters('{name}')]" = "[parameters('" ++ name ++ "')]" := rfl
  rw [expression, String.toList_append, String.toList_append, start]
  simp only [List.append_assoc, List.cons_append, List.nil_append]

end Expressions

/-! ### Resources and outputs -/

section Parts

variable {definition : Definition} {flavour : Flavour} {names : List String} {pool : AgentPool}

/-- The resource of a pool refers to the parameters of the pool, if its name has no quote. -/
theorem refersTo_poolResource_iff (plain : '\'' ∉ pool.name.toList) :
    (poolResource pool).RefersTo names ↔
      ("dnsNamePrefix" ∈ names ∧ ¬ opening <:+ pool.name.toList) ∧
        sizeParameter pool ∈ names ∧ countParameter pool ∈ names := by
  have texts : (poolResource pool).texts
      = ["type", "Microsoft.Compute/virtualMachineScaleSets", "apiVersion", "2017-03-30", "name",
          s!"[concat(parameters('dnsNamePrefix'), '-{pool.name}')]", "location",
          "[resourceGroup().location]", "sku", "name", s!"[parameters('{sizeParameter pool}')]",
          "capacity", s!"[parameters('{countParameter pool}')]"] := rfl
  have size : RefersTo names s!"[parameters('{sizeParameter pool}')]".toList ↔
      sizeParameter pool ∈ names :=
    refersTo_poolParameter_iff plain (by decide) (by decide)
  have count : RefersTo names s!"[parameters('{countParameter pool}')]".toList ↔
      countParameter pool ∈ names :=
    refersTo_poolParameter_iff plain (by decide) (by decide)
  have fixed : ∀ text ∈ ["type", "Microsoft.Compute/virtualMachineScaleSets", "apiVersion",
      "2017-03-30", "name", "location", "[resourceGroup().location]", "sku", "capacity"],
      RefersTo names text.toList := refersTo_of_forall_notMem (by decide)
  simp only [List.forall_mem_cons] at fixed
  unfold Json.RefersTo
  rw [texts]
  simp only [List.forall_mem_cons, fixed, refersTo_poolName_iff plain, size, count, true_and,
    List.not_mem_nil, false_imp_iff, implies_true, and_true]

def controlPlaneReferences (plane : ControlPlane) : List String :=
  "dnsNamePrefix" :: "linuxAdminUsername" :: Members.names
    (if plane.isHosted then [] else masterParameters)

theorem refersTo_controlPlaneResource (plane : ControlPlane) :
    (controlPlaneResource plane).RefersTo (controlPlaneReferences plane) := by
  cases plane with
  | managed master =>
      have refers : (controlPlaneResource (.managed {})).RefersTo
          (controlPlaneReferences (.managed {})) := by decide +kernel
      exact refers
  | hosted master =>
      have refers : (controlPlaneResource (.hosted {})).RefersTo
          (controlPlaneReferences (.hosted {})) := by decide
      exact refers

/-- They are declared. -/
theorem controlPlaneReferences_subset (definition : Definition) (flavour : Flavour) :
    controlPlaneReferences definition.controlPlane
      ⊆ Members.names (parameters definition flavour) := by
  unfold parameters controlPlaneReferences
  simp only [Members.names_append]
  intro name mem
  simp only [List.mem_cons] at mem
  rcases mem with rfl | rfl | mem
  · simp [Members.names, commonParameters]
  · simp [Members.names, commonParameters]
  · exact List.mem_append_left _ (List.mem_append_right _ mem)

/-- So are the parameters of every pool. -/
theorem poolParameters_subset (flavour : Flavour) (listed : pool ∈ definition.agentPools) :
    Members.names (poolParameters pool) ⊆ Members.names (parameters definition flavour) := by
  have pools : poolParameters pool ⊆ definition.agentPools.flatMap poolParameters :=
    fun parameter mem => List.mem_flatMap.mpr ⟨pool, listed, mem⟩
  exact List.map_subset _ (List.Subset.trans pools (List.subset_append_right _ _))

/-- With names that can be quoted, the resources refer to declared parameters. -/
theorem refersTo_resources (flavour : Flavour)
    (quotable : ∀ pool ∈ definition.agentPools, Quotable pool.name) :
    (Json.array (resources definition)).RefersTo
      (Members.names (parameters definition flavour)) := by
  have declared := controlPlaneReferences_subset definition flavour
  refine Json.refersTo_array_iff.mpr (List.forall_mem_cons.mpr ⟨?_, List.forall_mem_map.mpr ?_⟩)
  · exact (refersTo_controlPlaneResource _).mono declared
  · intro pool listed
    obtain ⟨plain, unopened⟩ := quotable pool listed
    have own := poolParameters_subset flavour listed
    refine (refersTo_poolResource_iff plain).mpr
      ⟨⟨declared List.mem_cons_self, unopened⟩, own ?_, own List.mem_cons_self⟩
    exact List.mem_cons_of_mem _ List.mem_cons_self

/-- The output of a pool with such a name refers to the DNS prefix. -/
theorem refersTo_poolOutput (quotable : Quotable pool.name) (listed : "dnsNamePrefix" ∈ names) :
    RefersTo names (poolOutput pool).1.toList ∧ (poolOutput pool).2.RefersTo names := by
  have name : '\'' ∉ (nameOutput pool).toList := by
    unfold nameOutput
    rw [String.toList_append]
    exact List.not_mem_append quotable.1 (by decide)
  have fixed : ∀ text ∈ ["type", "string", "value"], RefersTo names text.toList :=
    refersTo_of_forall_notMem (by decide)
  simp only [List.forall_mem_cons] at fixed
  obtain ⟨type, string, value, -⟩ := fixed
  refine ⟨refersTo_of_notMem name, Json.refersTo_object_iff.mpr ?_⟩
  simp only [List.map_cons, List.map_nil, List.forall_mem_cons, Json.refersTo_string_iff]
  exact ⟨⟨type, string⟩, ⟨value, refersTo_poolDomain quotable.1 listed⟩,
    fun _ mem => absurd mem List.not_mem_nil⟩

/-- With such names, the outputs do so too. -/
theorem refersTo_outputs (flavour : Flavour)
    (quotable : ∀ pool ∈ definition.agentPools, Quotable pool.name) :
    (Json.object (outputs definition flavour)).RefersTo
      (Members.names (parameters definition flavour)) := by
  have declared := controlPlaneReferences_subset definition flavour List.mem_cons_self
  have master : (Json.object [masterOutput]).RefersTo ["dnsNamePrefix"] := by decide +kernel
  have master := master.mono (List.cons_subset.mpr ⟨declared, List.nil_subset _⟩)
  refine Json.refersTo_object_iff.mpr (List.forall_mem_append.mpr
    ⟨?_, Json.refersTo_object_iff.mp master⟩)
  cases flavour with
  | modern => exact fun _ mem => absurd mem List.not_mem_nil
  | classic =>
      rw [if_pos rfl]
      refine List.forall_mem_map.mpr ?_
      intro pool listed
      exact refersTo_poolOutput (quotable pool listed) declared

/-- If the resource of a pool refers to names, then the name of the pool has no quote, or what
stands before its first quote is one of the names. -/
theorem named_of_refersTo_poolResource (refers : (poolResource pool).RefersTo names)
    (unquotable : ¬ Quotable pool.name) : Named names pool.name.toList := by
  by_cases quoted : '\'' ∈ pool.name.toList
  · obtain ⟨front, rest, same, plain⟩ := List.eq_append_cons_of_mem quoted
    have size : RefersTo names s!"[parameters('{sizeParameter pool}')]".toList :=
      refers _ (List.mem_of_getElem? (i := 10) rfl)
    have named := named_of_refersTo_parameter size
    unfold sizeParameter at named
    rw [String.toList_append, same, List.append_assoc, List.append_assoc, List.cons_append,
      named_append_cons_iff plain] at named
    rw [same, named_append_cons_iff plain]
    exact named
  · have unopened := ((refersTo_poolResource_iff quoted).mp refers).1.2
    exact absurd ⟨quoted, unopened⟩ unquotable

end Parts

end Template

/-! ### What is generated -/

section Generated

variable {issues : Nat → Issue} {catalog : Catalog} {flavour : Flavour} {world later : World}
  {validated : Validated} {generated : Generated}

/-- **The template refers to parameters that it declares**, if the names of agent pools can be
quoted. Whatever is generated for a validated definition, in either flavour: if every pool has a
name that has no quote and does not end in `parameters(`, then in every text of the resources and
the outputs each `parameters('` has a quote behind it, and the name before that is declared by the
template. A pool with any other name breaks this, unless what stands in its name before a quote
happens to be a declared parameter. -/
theorem references_declared
    (h : generate issues catalog validated flavour world = (.ok generated, later)) :
    ∃ (template declared : Members) (resources outputs : Json),
      Json.parse generated.template = .ok (.object template) ∧
        template.find? "parameters" = some (.object declared) ∧
          template.find? "resources" = some resources ∧
            template.find? "outputs" = some outputs ∧
              ((∀ pool ∈ validated.definition.agentPools, Quotable pool.name) →
                resources.RefersTo declared.names ∧ outputs.RefersTo declared.names) ∧
                ∀ pool ∈ validated.definition.agentPools, ¬ Quotable pool.name →
                  resources.RefersTo declared.names →
                    Named declared.names pool.name.toList := by
  obtain ⟨certificates, -, ⟨template, read, parameters, resources, outputs⟩, -⟩ :=
    reads_of_generate h
  rw [Template.ofPairs_of_apart (Template.apart_parameters flavour validated.sound)] at parameters
  rw [Template.ofPairs_of_apart (Template.apart_outputs flavour validated.sound)] at outputs
  refine ⟨template, _, _, _, read, parameters, resources, outputs, ?_, ?_⟩
  · intro quotable
    exact ⟨Template.refersTo_resources flavour quotable,
      Template.refersTo_outputs flavour quotable⟩
  · intro pool listed unquotable refers
    refine Template.named_of_refersTo_poolResource ?_ unquotable
    exact Json.refersTo_array_iff.mp refers _
      (List.mem_cons_of_mem _ (List.mem_map_of_mem listed))

/-- A pool with a hyphen in its name. -/
theorem references_declared_hyphen :
    let validated : Validated :=
      { definition :=
          { version := .vlabs
            controlPlane := .managed { dnsPrefix := "m" }
            agentPools := [{ name := "a-b" }]
            linux := some { sshKeys := ["k"] } }
        source := "c.json"
        outputDirectory := "out"
        sound := rfl }
    let world : World := { files := { entries := [], home := [] }, issued := 0 }
    let generated : Generated :=
      .of validated.definition (markedAuthority 1) .classic (some (markedAuthority 1))
    (generate markedIssues {} validated .classic world
        = (.ok generated, { world with issued := 1 }) ∧
      ∀ pool ∈ validated.definition.agentPools, Quotable pool.name) ∧
      ∃ (template declared : Members) (resources outputs : Json),
        Json.parse generated.template = .ok (.object template) ∧
          template.find? "parameters" = some (.object declared) ∧
            template.find? "resources" = some resources ∧
              template.find? "outputs" = some outputs ∧
                resources.RefersTo declared.names ∧ outputs.RefersTo declared.names := by
  intro validated world generated
  have generates : generate markedIssues {} validated .classic world
      = (.ok generated, { world with issued := 1 }) := rfl
  have quotable : ∀ pool ∈ validated.definition.agentPools, Quotable pool.name := by decide
  obtain ⟨template, declared, resources, outputs, read, own, found, found', refers, -⟩ :=
    references_declared generates
  exact ⟨⟨generates, quotable⟩, template, declared, resources, outputs, read, own, found, found',
    refers quotable⟩

/-- **A quote in the name of a pool breaks the references to its parameters**: what the resource
of a pool called `it's` refers to is `it`, which is not declared. -/
theorem not_references_declared_quote :
    let validated : Validated :=
      { definition :=
          { version := .vlabs
            controlPlane := .managed { dnsPrefix := "m" }
            agentPools := [{ name := "it's" }]
            linux := some { sshKeys := ["k"] } }
        source := "c.json"
        outputDirectory := "out"
        sound := rfl }
    let world : World := { files := { entries := [], home := [] }, issued := 0 }
    ∃ (generated : Generated) (template declared : Members) (resources : Json),
      generate markedIssues {} validated .modern world
          = (.ok generated, { world with issued := 1 }) ∧
        Json.parse generated.template = .ok (.object template) ∧
          template.find? "parameters" = some (.object declared) ∧
            template.find? "resources" = some resources ∧
              ¬ resources.RefersTo declared.names := by
  intro validated world
  let generated : Generated :=
    .of validated.definition (markedAuthority 1) .modern (some (markedAuthority 1))
  have generates : generate markedIssues {} validated .modern world
      = (.ok generated, { world with issued := 1 }) := rfl
  obtain ⟨certificates, -, ⟨template, read, parameters, resources, -⟩, -⟩ :=
    reads_of_generate generates
  refine ⟨generated, template, _, _, generates, read, parameters, resources, ?_⟩
  intro refers
  have own : (Template.poolResource { name := "it's" }).RefersTo _ :=
    Json.refersTo_array_iff.mp refers _ (List.mem_cons_of_mem _ List.mem_cons_self)
  have named := Template.named_of_refersTo_poolResource own (by decide)
  revert named
  decide

end Generated

end Provision
