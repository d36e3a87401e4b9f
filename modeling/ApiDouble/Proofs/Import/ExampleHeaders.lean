import ApiDouble.Import.AsyncApi
import ApiDouble.Proofs.Document.Json
import ApiDouble.Proofs.Import.Noted
import Mathlib.Data.List.Forall2

/-!
# Headers of an example

**Two spellings** (`Spells`). The headers of an example are an object, or a string with the JSON
text of one. If the values are strings, truth values and integers, each member is a header: its
name, and the values in its text between the commas (`IsHeaderOf`). The spellings lead to the same
headers, and no warning comes of either of them.

**No object.** A string that is not the text of an object gives no headers. The example is recorded
all the same, and one warning says what is wrong with its headers (`notAnObject`).

Main result: `records_spelled`.
-/

namespace ApiDouble.Import.AsyncApi

open Noted

variable {source : Source} {opName contentType raw t : String} {named : String × Document}
  {entry d p : Document} {ms : List (String × Document)} {hs : List Header} {ws : List Warning}

/-! ## Members and headers -/

/-- The text of a string, a truth value or an integer. -/
inductive HasText : Document → String → Prop
  | string (s : String) : HasText (.string s) s
  | yes : HasText (.bool true) "true"
  | no : HasText (.bool false) "false"
  | integer (z : Int) : HasText (.number (.integer z)) (toString z)

/-- A string, a truth value or an integer. -/
def IsPlain (d : Document) : Prop := ∃ t, HasText d t

/-- The header that a member is. -/
def IsHeaderOf (m : String × Document) (h : Header) : Prop :=
  ∃ t, HasText m.2 t ∧ h = .ofCsv m.1 t

theorem integerText_eq (z : Int) : Json.integerText z = (toString z).toList := by
  cases z with
  | ofNat n =>
    have hn : ¬Int.ofNat n < 0 := Int.not_ofNat_neg n
    show (if Int.ofNat n < 0 then _ else Nat.toDigits 10 n) = (Nat.repr n).toList
    rw [if_neg hn, Nat.toList_repr]
  | negSucc n =>
    show (if Int.negSucc n < 0 then '-' :: Nat.toDigits 10 (n + 1) else _) =
      ("-" ++ Nat.repr (n + 1)).toList
    rw [if_pos (Int.negSucc_lt_zero n), String.toList_append, Nat.toList_repr]
    rfl

theorem HasText.text_eq (h : HasText d t) : d.text = t := by
  cases h with
  | string => rfl
  | yes => rfl
  | no => rfl
  | integer z =>
    show String.ofList (Json.integerText z) = toString z
    rw [integerText_eq, String.ofList_toList]

theorem HasText.readable {depth : Nat} (h : HasText d t)
    (hstored : ∀ z, d = .number (.integer z) → Json.IsStored z) : Json.Readable depth d := by
  cases h with
  | string => exact Json.readable_string depth _
  | yes => exact Json.readable_bool depth true
  | no => exact Json.readable_bool depth false
  | integer z => exact Json.readable_integer depth (hstored z rfl)

theorem isHeaderOf_headersOf (h : ∀ m ∈ ms, IsPlain m.2) :
    List.Forall₂ IsHeaderOf ms (headersOf ms) := by
  rw [headersOf, List.forall₂_map_right_iff, List.forall₂_same]
  intro m hm
  obtain ⟨t, ht⟩ := h m hm
  exact ⟨t, ht, by rw [ht.text_eq]⟩

/-! ## Spellings -/

/-- The headers of an example are an object with these members, or a string with the text of it. -/
inductive Spells (entry : Document) (ms : List (String × Document)) : Prop
  | tree (h : entry.get "headers" = .object ms)
  | text {raw : String} (h : entry.get "headers" = .string raw)
      (hparse : Json.parse? raw.toList = some (.object ms))

/-- The warning about headers that are a string and not the text of an object. -/
def notAnObject (unit raw : String) : Warning where
  kind := .partialImport
  unit := unit ++ "#headers"
  reason := "headers value '" ++ raw ++ "' is a string but not a JSON object"

/-- The spelling makes no difference to the headers. -/
theorem Spells.headers_eq (h : Spells entry ms) (unit : String) :
    headers unit entry = ⟨headersOf ms, []⟩ := by
  unfold headers
  cases h with
  | tree h =>
    rw [h]
    rfl
  | text h hparse =>
    rw [h]
    simp only [hparse]
    rfl

theorem headers_of_string (h : entry.get "headers" = .string raw)
    (hparse : ∀ ms, Json.parse? raw.toList ≠ some (.object ms)) (unit : String) :
    headers unit entry = ⟨[], [notAnObject unit raw]⟩ := by
  unfold headers
  rw [h]
  dsimp only
  split
  · next ms hms => exact absurd hms (hparse ms)
  · rfl

/-! ## Examples -/

/-- An example is recorded with some headers, and these are all warnings about it. -/
def Records (source : Source) (opName contentType : String) (named : String × Document)
    (hs : List Header) (ws : List Warning) : Prop :=
  ∃ e, exchange? source opName contentType named = ⟨some e, ws⟩ ∧ e.name = named.1 ∧
    e.inbound.headers = hs

theorem records_of_headers (hp : payload? source named.2 = .ok (some p))
    (hheaders : headers (opName ++ "#" ++ named.1) named.2 = ⟨hs, ws⟩) :
    Records source opName contentType named hs ws := by
  let message : Message := {
    name := named.1
    content := some p.text
    mediaType := some contentType
    headers := hs
    parameters := (named.2.get "parameters").members.map fun m => ⟨m.1, m.2.text⟩ }
  refine ⟨.event message, ?_, rfl, rfl⟩
  unfold exchange?
  rw [hp]
  dsimp only
  rw [hheaders]
  exact ext rfl (List.append_nil ws)

/-- **Both spellings lead to the same headers, one for each member in order, and to no warning.** An
object of distinct names and integers of 64 bits has such a text. A string that is not the text of
an object leads to no headers and to one warning. -/
theorem records_spelled :
    (∀ ms : List (String × Document), (∀ m ∈ ms, IsPlain m.2) →
      ∃ hs, List.Forall₂ IsHeaderOf ms hs ∧
        ∀ source opName contentType named p, payload? source named.2 = .ok (some p) →
          Spells named.2 ms → Records source opName contentType named hs []) ∧
    (∀ ms : List (String × Document), (∀ m ∈ ms, IsPlain m.2) → (ms.map (·.1)).Nodup →
      (∀ m ∈ ms, ∀ z, m.2 = .number (.integer z) → Json.IsStored z) →
        Json.parse? (Document.object ms).toJson.toList = some (.object ms)) ∧
    ∀ raw : String, (∀ ms, Json.parse? raw.toList ≠ some (.object ms)) →
      ∀ source opName contentType named p, payload? source named.2 = .ok (some p) →
        named.2.get "headers" = .string raw →
          Records source opName contentType named []
            [notAnObject (opName ++ "#" ++ named.1) raw] := by
  refine ⟨fun ms hplain => ?_, fun ms hplain hdistinct hstored => ?_, fun raw hparse => ?_⟩
  · refine ⟨headersOf ms, isHeaderOf_headersOf hplain, ?_⟩
    intro source opName contentType named p hp hspells
    exact records_of_headers hp (hspells.headers_eq _)
  · have hvalues : ∀ m ∈ ms, Json.Readable 126 m.2 := by
      intro m hm
      obtain ⟨t, ht⟩ := hplain m hm
      exact ht.readable (hstored m hm)
    rw [Document.toJson, String.toList_ofList]
    exact Json.parse?_compact (Json.Readable.object hdistinct hvalues)
  · intro source opName contentType named p hp hstring
    exact records_of_headers hp (headers_of_string hstring hparse _)

/-- The members of headers, an integer and a truth value among them. -/
def traceMembers : List (String × Document) :=
  [("X-Trace", .string "b, a"), ("count", .number (.integer (-3))), ("last", .bool true)]

/-- An example with a payload and headers. -/
def exampleOf (headers : Document) : Document :=
  .object [("payload", .string "up"), ("headers", headers)]

theorem records_trace (source : Source) :
    ∃ hs, List.Forall₂ IsHeaderOf traceMembers hs ∧
      Records source "PUBLISH a" "text/plain" ("tree", exampleOf (.object traceMembers)) hs [] ∧
      Records source "PUBLISH a" "text/plain"
        ("text", exampleOf (.string (Document.object traceMembers).toJson)) hs [] ∧
      Records source "PUBLISH a" "text/plain" ("none", exampleOf (.string "[]")) []
        [⟨.partialImport, "PUBLISH a#none#headers",
          "headers value '[]' is a string but not a JSON object"⟩] := by
  obtain ⟨hspelled, htext, hno⟩ := records_spelled
  have hplain : ∀ m ∈ traceMembers, IsPlain m.2 := by
    simp only [traceMembers, List.forall_mem_cons]
    exact ⟨⟨_, .string _⟩, ⟨_, .integer _⟩, ⟨_, .yes⟩, List.forall_mem_nil _⟩
  have hdistinct : (traceMembers.map (·.1)).Nodup := by decide
  have hstored : ∀ m ∈ traceMembers, ∀ z, m.2 = .number (.integer z) → Json.IsStored z := by
    simp [traceMembers, Json.IsStored, Text.least64, UInt64.size]
  have hread := htext traceMembers hplain hdistinct hstored
  obtain ⟨hs, hheaders, hrecords⟩ := hspelled traceMembers hplain
  refine ⟨hs, hheaders, ?_, ?_, ?_⟩
  · exact hrecords source _ _ _ (.string "up") rfl (.tree rfl)
  · exact hrecords source _ _ _ (.string "up") rfl (.text rfl hread)
  · refine hno "[]" (fun ms h => ?_) source _ _ _ (.string "up") rfl rfl
    obtain ⟨r, hr⟩ := Json.skipSpace_of_parse? h rfl
    cases hr

end ApiDouble.Import.AsyncApi
