import CucumberExpressions.Proofs.Json.Layout
import CucumberExpressions.Proofs.Json.Reader
import CucumberExpressions.Proofs.Report

/-!
# Reports in JSON lose nothing

A report in the JSON format is one JSON document and a line break. Whoever reads it by the rules of
JSON gets back the records of the expressions, character by character. So the text of a report says
all that there is to say about its results: reports with different results are different texts.

## Main definitions

* `jsonText` — the text of a report in JSON

## Main results

* `Token.toJson_injective` — different tokens have different JSON records
* `Record.ofExpression_eq_of_toJson_eq` — different results have different JSON records
* `report_in_json_is_lossless` — what can be read off a report in JSON
-/

namespace CucumberExpressions

/-- Different tokens have different JSON records. -/
theorem Token.toJson_injective : Function.Injective Token.toJson := by
  intro first second h
  simp only [toJson, Json.object.injEq, List.cons.injEq, Prod.mk.injEq, Json.string.injEq,
    Json.number.injEq, true_and, and_true] at h
  obtain ⟨hkind, htext, hstart, hstop⟩ := h
  cases first
  cases second
  cases Kind.name_injective hkind
  cases htext
  cases hstart
  cases hstop
  rfl

/-- Different results have different JSON records. A record of an error leaves out what is known
about the error from the expression. -/
theorem Record.ofExpression_eq_of_toJson_eq {sentinels sentinels' : Bool}
    {expression expression' : String}
    (h : (ofExpression sentinels expression).toJson =
      (ofExpression sentinels' expression').toJson) :
    ofExpression sentinels expression = ofExpression sentinels' expression' := by
  unfold ofExpression at h ⊢
  cases htokens : tokenize expression with
  | ok tokens =>
    cases htokens' : tokenize expression' with
    | ok tokens' =>
      simp only [htokens, htokens', toJson, Json.object.injEq, List.cons.injEq, Prod.mk.injEq,
        Json.string.injEq, Json.array.injEq, true_and, and_true] at h
      dsimp only
      rw [h.1, Token.toJson_injective.list_map h.2]
    | error error' => simp [htokens, htokens', toJson] at h
  | error error =>
    cases htokens' : tokenize expression' with
    | ok tokens' => simp [htokens, htokens', toJson] at h
    | error error' =>
      -- Both errors are those of the expression that stands in the records.
      simp only [htokens, htokens', toJson, Json.object.injEq, List.cons.injEq, Prod.mk.injEq,
        Json.string.injEq, expression_of_tokenize_eq_error htokens,
        expression_of_tokenize_eq_error htokens', true_and] at h
      rw [h.1, htokens'] at htokens
      cases htokens
      rfl

/-! ### The text of a report -/

/-- The line feed at the end is white space to a reader. -/
theorem Json.spells_render_line (json : Json) :
    Json.Spells json.value (json.render ++ "\n").toList := by
  have hbreak : Json.IsSpaces "\n".toList := by simp [Json.IsSpaces, Json.isSpace]
  rw [String.toList_append]
  exact .padded Json.isSpaces_nil json.spells_render hbreak

/-- A line with a document on it can be read in one way only. -/
theorem Json.spells_render_line_iff {json : Json} {value : Json.Value} :
    Json.Spells value (json.render ++ "\n").toList ↔ value = json.value := by
  constructor
  · exact fun h => h.unique json.spells_render_line
  · rintro rfl
    exact json.spells_render_line

/-- The text of a report in JSON. -/
def jsonText (expressions : List String) (sentinels verbose : Bool) : String :=
  (Options.mk expressions (some .json) sentinels verbose).report.output

section Text

variable {expressions expressions' : List String} {sentinels sentinels' verbose verbose' : Bool}

theorem jsonText_eq :
    jsonText expressions sentinels verbose =
      (Json.array ((expressions.map (Record.ofExpression sentinels)).map Record.toJson)).render ++
        "\n" := by
  rw [jsonText, Options.report_eq]
  rfl

/-- The results can be told from their records. -/
theorem map_ofExpression_eq_of_map_toJson_eq
    (h : (expressions.map (Record.ofExpression sentinels)).map Record.toJson =
      (expressions'.map (Record.ofExpression sentinels')).map Record.toJson) :
    expressions.map (Record.ofExpression sentinels) =
      expressions'.map (Record.ofExpression sentinels') := by
  refine Json.eq_of_map_eq_map ?_ h
  intro record hrecord record' hrecord' hsame
  obtain ⟨expression, -, rfl⟩ := List.mem_map.mp hrecord
  obtain ⟨expression', -, rfl⟩ := List.mem_map.mp hrecord'
  exact Record.ofExpression_eq_of_toJson_eq hsame

/-- Reports with different results are different texts. -/
theorem jsonText_eq_iff :
    jsonText expressions sentinels verbose = jsonText expressions' sentinels' verbose' ↔
      expressions.map (Record.ofExpression sentinels) =
        expressions'.map (Record.ofExpression sentinels') := by
  rw [jsonText_eq, jsonText_eq]
  constructor
  · intro h
    -- The text can be read in one way only, so it is the same document that is read.
    have hvalue := Json.spells_render_line
      (.array ((expressions.map (Record.ofExpression sentinels)).map Record.toJson))
    rw [h, Json.spells_render_line_iff] at hvalue
    exact map_ofExpression_eq_of_map_toJson_eq (Json.array.inj (Json.value_injective hvalue))
  · exact fun h => by rw [h]

end Text

/-- **A report in JSON loses nothing.** It is a JSON document and a line break. The document stands
for the records of the expressions in their order and for nothing else, whoever reads it. Two
reports are the same text only if their results are the same. -/
theorem report_in_json_is_lossless (expressions : List String) (sentinels verbose : Bool) :
    (∃ records, List.Forall₂ (Recorded sentinels) expressions records ∧
      (∃ text, jsonText expressions sentinels verbose = text ++ "\n" ∧
        Json.Spells (Json.array records).value text.toList) ∧
      (∀ value, Json.Spells value (jsonText expressions sentinels verbose).toList ↔
        value = (Json.array records).value) ∧
      Json.read? (jsonText expressions sentinels verbose).toList =
        some (Json.array records).value) ∧
    ∀ (expressions' : List String) (sentinels' verbose' : Bool),
      jsonText expressions sentinels verbose = jsonText expressions' sentinels' verbose' ↔
        expressions.map (Record.ofExpression sentinels) =
          expressions'.map (Record.ofExpression sentinels') := by
  refine ⟨⟨(expressions.map (Record.ofExpression sentinels)).map Record.toJson, ?_, ?_, ?_, ?_⟩,
    fun _ _ _ => jsonText_eq_iff⟩
  · rw [List.map_map, List.forall₂_map_right_iff, List.forall₂_same]
    exact fun expression _ => recorded_toJson sentinels expression
  · exact ⟨_, jsonText_eq, Json.spells_render _⟩
  · intro value
    rw [jsonText_eq, Json.spells_render_line_iff]
  · rw [Json.read?_eq_some_iff, jsonText_eq, Json.spells_render_line_iff]

end CucumberExpressions
