import Provision.Proofs.EmptySubnet.CompactText
import Provision.Proofs.Json.Parsed
import Provision.Proofs.Json.RoundTrip

/-!
Canonical text needs no second pass.

Erasing a literal can bring its two sides together to another occurrence of it, and what is left
of JSON need not be JSON. On canonical text neither happens, whatever names and texts the document
has: the canonical text is the compact text of a value, `Json.joined`, in which nothing is cut
any more.

* `parse_canonicalText_asRead` — the canonical text can be read.
* `strip_canonicalText` — stripping it once more changes nothing.
* `canonicalText_settled` — both, for every document, and that the literal occurs nowhere in it.

Subnets that lead are what makes this removal complete
(`joined_eq_withoutEmptySubnets`), but not what makes it end after one pass: the same holds of the
compact text of any value.
-/

namespace Provision

namespace Json

theorem canonicalText_eq_joined (document : Json) :
    document.canonicalText = document.subnetFirst.joined.compact :=
  strip_compact_eq_joined document.subnetFirst

/-- A document that is nested no deeper than the reader allows has a canonical text that can be
read. -/
theorem parse_canonicalText_asRead {document : Json}
    (bound : document.nesting ≤ Reader.maxLevels) :
    Json.parse document.canonicalText = .ok document.subnetFirst.joined.asRead := by
  rw [canonicalText_eq_joined]
  exact parse_compact_asRead (nesting_joined_le (rebuilds_subnetFirst.nesting_le bound))

/-- What is joined is not joined again. -/
theorem strip_canonicalText (document : Json) :
    EmptySubnet.strip document.canonicalText = document.canonicalText := by
  rw [canonicalText_eq_joined, strip_compact_eq_joined, joined_joined]

end Json

/-- A text that stripping does not change holds no empty subnet. -/
theorem EmptySubnet.not_infix_of_strip_eq {text : String} (same : strip text = text) :
    ¬ literal <:+: text.toList := by
  have kept := congrArg String.toList same
  rw [strip, String.toList_ofList] at kept
  exact (Text.erase_eq_self_iff Json.literal_ne_nil).mp kept

/-- **One pass is enough, and leaves JSON.** The canonical text of every document that can be read
can be read as well, the literal of an empty subnet does not occur in it, and stripping it again
returns it as it is. Names and texts may hold any characters, the literal and quotes among them. -/
theorem Json.canonicalText_settled {text : String} {document : Json}
    (read : Json.parse text = .ok document) :
    (∃ value, Json.parse document.canonicalText = .ok value) ∧
      ¬ EmptySubnet.literal <:+: document.canonicalText.toList ∧
      EmptySubnet.occursIn document.canonicalText = false ∧
      EmptySubnet.strip document.canonicalText = document.canonicalText := by
  have again := strip_canonicalText document
  have absent := EmptySubnet.not_infix_of_strip_eq again
  refine ⟨⟨_, parse_canonicalText_asRead (wellRead_of_parse read).bound⟩, absent, ?_, again⟩
  rw [Bool.eq_false_iff]
  exact fun occurs => absent (Text.occurs_iff.mp occurs)

/-- An empty subnet and two members in a row whose names end in a quote and `subnet`: of all three
something is erased, and the two stems stand in front of the last name. -/
theorem Json.canonicalText_settled_severed :
    let document := Json.object
      [ ("x\"subnet", .string ""),
        ("y\"subnet", .string ""),
        ("subnet", .string ""),
        ("note", .string "\"subnet\":\"\",") ]
    Json.parse document.compact = .ok document ∧
      document.canonicalText
        = (Json.object [("x\"y\"note", .string "\"subnet\":\"\",")]).compact ∧
      (∃ value, Json.parse document.canonicalText = .ok value) ∧
      ¬ EmptySubnet.literal <:+: document.canonicalText.toList ∧
      EmptySubnet.occursIn document.canonicalText = false ∧
      EmptySubnet.strip document.canonicalText = document.canonicalText := by
  intro document
  have read : Json.parse document.compact = .ok document :=
    Json.parse_compact (by decide) (by decide) (by decide)
  exact ⟨read, by decide, Json.canonicalText_settled read⟩

end Provision
