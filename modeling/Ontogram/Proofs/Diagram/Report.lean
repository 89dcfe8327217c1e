import Ontogram.Diagram.Report
import Ontogram.Proofs.Json.Record

/-!
# Tables and reports are read back

Every record that is written is read back from its JSON, and from the text of its JSON. A report has
counts in it, and a count is read up to 64 bits.

* `Row.parse_table` — a table from its text.
* `CompileReport.parse_report` — a report from its text.
-/

namespace Ontogram

open Json

/-! ## Tables -/

namespace Row

theorem ofJson?_toJson (r : Row) : ofJson? r.toJson = some r := by
  have hfields : fields? ["parent", "child", "rel", "is_rank"] r.toJson = some ⟨_, false⟩ :=
    fields?_zip (by decide)
      [.string r.parent, .string r.child, .string r.rel, .bool r.isRank] rfl
  unfold ofJson?
  rw [hfields]
  rfl

theorem written_toJson (r : Row) : r.toJson.Written := by
  refine written_object ["parent", "child", "rel", "is_rank"]
    [.string r.parent, .string r.child, .string r.rel, .bool r.isRank] ?_
  simp only [List.forall_mem_cons]
  exact ⟨.string _, .string _, .string _, .bool _, List.forall_mem_nil _⟩

theorem tableOfJson?_tableToJson (rows : List Row) : tableOfJson? (tableToJson rows) = some rows :=
  readAll_map fun r _ => r.ofJson?_toJson

theorem written_tableToJson (rows : List Row) : (tableToJson rows).Written :=
  written_map fun r _ => r.written_toJson

/-- A table is read back from its text. -/
theorem parse_table (rows : List Row) :
    (parse? (tableToJson rows).pretty).bind tableOfJson? = some rows := by
  rw [parse?_pretty (written_tableToJson rows)]
  exact tableOfJson?_tableToJson rows

end Row

/-! ## Reports -/

namespace SkippedBinding

theorem ofJson?_toJson (s : SkippedBinding) : ofJson? s.toJson = some s := by
  have hfields : fields? ["rel_id", "parent_id", "child_id", "reason"] s.toJson = some ⟨_, false⟩ :=
    fields?_zip (by decide)
      [.string s.relId, .string s.parentId, .string s.childId, .string s.reason] rfl
  unfold ofJson?
  rw [hfields]
  rfl

theorem written_toJson (s : SkippedBinding) : s.toJson.Written := by
  refine written_object ["rel_id", "parent_id", "child_id", "reason"]
    [.string s.relId, .string s.parentId, .string s.childId, .string s.reason] ?_
  simp only [List.forall_mem_cons]
  exact ⟨.string _, .string _, .string _, .string _, List.forall_mem_nil _⟩

end SkippedBinding

namespace ComponentReport

theorem ofJson?_toJson {c : ComponentReport} (h : c.operations ≤ 0xFFFFFFFFFFFFFFFF) :
    ofJson? c.toJson = some c := by
  have hfields : fields? ["root_id", "operations", "skipped", "unreached", "error"] c.toJson
      = some ⟨_, false⟩ :=
    fields?_zip (by decide) [.optional c.rootId, .count c.operations,
      .array (c.skipped.map SkippedBinding.toJson), .strings c.unreached, .optional c.error] rfl
  have hskipped : list? SkippedBinding.ofJson? (.array (c.skipped.map SkippedBinding.toJson))
      = some c.skipped :=
    readAll_map fun s _ => s.ofJson?_toJson
  unfold ofJson?
  rw [hfields]
  show (optional? string? (.optional c.rootId)).bind _ = _
  rw [optional?_optional]
  show (count? (.count c.operations)).bind _ = _
  rw [count?_count h]
  show (list? SkippedBinding.ofJson? (.array (c.skipped.map SkippedBinding.toJson))).bind _ = _
  rw [hskipped]
  show (list? string? (.strings c.unreached)).bind _ = _
  rw [list?_strings]
  show (optional? string? (.optional c.error)).bind _ = _
  rw [optional?_optional]
  rfl

theorem written_toJson (c : ComponentReport) : c.toJson.Written := by
  refine written_object ["root_id", "operations", "skipped", "unreached", "error"]
    [.optional c.rootId, .count c.operations, .array (c.skipped.map SkippedBinding.toJson),
      .strings c.unreached, .optional c.error] ?_
  simp only [List.forall_mem_cons]
  exact ⟨written_optional _, .count _, written_map fun s _ => s.written_toJson,
    written_strings _, written_optional _, List.forall_mem_nil _⟩

end ComponentReport

namespace CompileReport

/-- Says that every count of a report is read back: it fits into 64 bits. -/
def CountsFit (r : CompileReport) : Prop :=
  ∀ c ∈ r.components, c.operations ≤ 0xFFFFFFFFFFFFFFFF

theorem ofJson?_toJson {r : CompileReport} (h : r.CountsFit) : ofJson? r.toJson = some r := by
  have hfields : fields? ["components", "isolates", "unplaced"] r.toJson = some ⟨_, false⟩ :=
    fields?_zip (by decide) [.array (r.components.map ComponentReport.toJson),
      .strings r.isolates, .strings r.unplaced] rfl
  have hcomponents : list? ComponentReport.ofJson? (.array (r.components.map ComponentReport.toJson))
      = some r.components :=
    readAll_map fun c hc => ComponentReport.ofJson?_toJson (h c hc)
  unfold ofJson?
  rw [hfields]
  show (list? ComponentReport.ofJson? (.array (r.components.map ComponentReport.toJson))).bind _ = _
  rw [hcomponents]
  show (list? string? (.strings r.isolates)).bind _ = _
  rw [list?_strings]
  show (list? string? (.strings r.unplaced)).bind _ = _
  rw [list?_strings]
  rfl

theorem written_toJson (r : CompileReport) : r.toJson.Written := by
  refine written_object ["components", "isolates", "unplaced"]
    [.array (r.components.map ComponentReport.toJson), .strings r.isolates,
      .strings r.unplaced] ?_
  simp only [List.forall_mem_cons]
  exact ⟨written_map fun c _ => c.written_toJson, written_strings _, written_strings _,
    List.forall_mem_nil _⟩

/-- A report is read back from its text. -/
theorem parse_report {r : CompileReport} (h : r.CountsFit) :
    (parse? r.toJson.pretty).bind ofJson? = some r := by
  rw [parse?_pretty r.written_toJson]
  exact ofJson?_toJson h

/-- A report is no table. -/
theorem parse_report_table (r : CompileReport) :
    (parse? r.toJson.pretty).bind Row.tableOfJson? = none := by
  rw [parse?_pretty r.written_toJson]
  rfl

end CompileReport

end Ontogram
