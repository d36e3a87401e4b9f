import ApiDouble.Import.Specification
import ApiDouble.Proofs.Document.Json
import ApiDouble.Proofs.Text.Blank
import ApiDouble.Proofs.Text.LineFeed

/-!
# The format of a specification

**Marks** (`Marks`). A line that starts with a bracket is marked as JSON, one that starts with a
document mark or a root key as YAML. The leading lines of some bytes are read line by line and
trimmed, blank ones left out (`leadingLines`). The first marked one among them decides, and if none
is marked the format to fall back to is the answer (`Decides`).

**JSON documents.** An object starts with a brace. What may stand before it are blanks and blank
lines, which are no part of the leading lines (`significantLines_append`), so the brace is the mark
of the first of them.

Main result: `parse_sniffed`.
-/

namespace ApiDouble.Import

open Text

/-! ## Marks -/

/-- A line that starts like a format. -/
inductive Marks : Format → List Char → Prop
  | brace (rest : List Char) : Marks .json ('\x7b' :: rest)
  | bracket (rest : List Char) : Marks .json ('[' :: rest)
  | word (w : String) (h : w ∈ ["---", "asyncapi:", "openapi:", "swagger:"]) (rest : List Char) :
      Marks .yaml (w.toList ++ rest)

/-- The format that lines decide on: that of the first one that is marked. -/
inductive Decides (fallback : Format) : List (List Char) → Format → Prop
  | unmarked : Decides fallback [] fallback
  | marked {f : Format} {line : List Char} (h : Marks f line) (lines : List (List Char)) :
      Decides fallback (line :: lines) f
  | passed {f : Format} {line : List Char} {lines : List (List Char)} (h : ∀ g, ¬Marks g line)
      (hlines : Decides fallback lines f) : Decides fallback (line :: lines) f

/-- The first lines of some bytes, each read for itself and trimmed, blank ones left out. -/
def leadingLines (n : Nat) (content : List UInt8) : List (List Char) :=
  (((content.splitOn Utf8.lineFeed).map fun line => trim (Utf8.decodeLenient line)).filter
    (!·.isEmpty)).take n

variable {f fallback : Format} {line : List Char} {lines : List (List Char)}

theorem marks_json_iff :
    Marks .json line ↔ line.head? = some '\x7b' ∨ line.head? = some '[' := by
  constructor
  · rintro (rest | rest)
    · exact .inl rfl
    · exact .inr rfl
  · cases line with
    | nil => rintro (h | h) <;> cases h
    | cons c rest =>
      rintro (h | h) <;> obtain rfl := Option.some.inj h
      · exact .brace rest
      · exact .bracket rest

theorem marks_yaml_iff : Marks .yaml line ↔
    (["---", "asyncapi:", "openapi:", "swagger:"].any fun w => w.toList.isPrefixOf line) =
      true := by
  simp only [List.any_eq_true, List.isPrefixOf_iff_prefix]
  constructor
  · intro h
    cases h with
    | word w hw rest => exact ⟨w, hw, rest, rfl⟩
  · rintro ⟨w, hw, rest, rfl⟩
    exact .word w hw rest

theorem Marks.unique {g : Format} (h : Marks f line) (h' : Marks g line) : f = g := by
  have hapart : ∀ {line}, Marks .json line → ¬Marks .yaml line := by
    intro line hjson hyaml
    cases hyaml with
    | word w hw rest =>
      simp only [List.mem_cons, List.not_mem_nil, or_false] at hw
      rcases hw with rfl | rfl | rfl | rfl <;>
        rcases marks_json_iff.1 hjson with hhead | hhead <;> cases hhead
  cases f <;> cases g
  · rfl
  · exact absurd h' (hapart h)
  · exact absurd h (hapart h')
  · rfl

theorem lineFormat?_eq_some_iff : lineFormat? line = some f ↔ Marks f line := by
  have hmarks : ∀ {g}, Marks g line → (some g = some f ↔ Marks f line) := fun hg =>
    ⟨fun he => Option.some.inj he ▸ hg, fun hf => congrArg some (hg.unique hf)⟩
  unfold lineFormat?
  by_cases hjson : Marks .json line
  · rw [if_pos (marks_json_iff.1 hjson)]
    exact hmarks hjson
  · rw [if_neg (mt marks_json_iff.2 hjson)]
    by_cases hyaml : Marks .yaml line
    · rw [if_pos (marks_yaml_iff.1 hyaml)]
      exact hmarks hyaml
    · rw [if_neg (mt marks_yaml_iff.2 hyaml)]
      refine iff_of_false nofun ?_
      cases f with
      | json => exact hjson
      | yaml => exact hyaml

theorem lineFormat?_eq_none_iff : lineFormat? line = none ↔ ∀ g, ¬Marks g line := by
  simp only [← lineFormat?_eq_some_iff, Option.eq_none_iff_forall_ne_some, ne_eq]

/-- The first marked line decides. -/
theorem findSome?_eq_iff : (lines.findSome? lineFormat?).getD fallback = f ↔
    Decides fallback lines f := by
  induction lines with
  | nil =>
    constructor
    · rintro rfl
      exact .unmarked
    · rintro ⟨⟩
      rfl
  | cons line lines ih =>
    rw [List.findSome?_cons]
    cases hline : lineFormat? line with
    | some g =>
      have hmarks := lineFormat?_eq_some_iff.1 hline
      constructor
      · rintro rfl
        exact .marked hmarks lines
      · intro h
        cases h with
        | marked h' => exact Option.some.inj (hline.symm.trans (lineFormat?_eq_some_iff.2 h'))
        | passed h' => exact absurd hmarks (h' g)
    | none =>
      have hpass := lineFormat?_eq_none_iff.1 hline
      rw [ih]
      constructor
      · exact .passed hpass
      · intro h
        cases h with
        | marked h' => exact absurd h' (hpass f)
        | passed _ hlines => exact hlines

/-! ## Lines -/

/-- It does not matter whether the text or its bytes are divided into lines. -/
theorem take_significantLines (content : List UInt8) (n : Nat) :
    (significantLines (Utf8.decodeLenient content)).take n = leadingLines n content := by
  rw [significantLines, Utf8.splitOn_decodeLenient, List.map_map]
  rfl

theorem sniff_eq_iff (content : List UInt8) (n : Nat) :
    sniff content n fallback = f ↔ Decides fallback (leadingLines n content) f := by
  rw [sniff, take_significantLines, findSome?_eq_iff]

theorem significantLines_cons {c : Char} (hc : isBlank c = true) (s : List Char) :
    significantLines (c :: s) = significantLines s := by
  unfold significantLines
  rw [List.splitOn_cons_eq_if_modifyHead]
  split
  · rfl
  · cases hs : s.splitOn '\n' with
    | nil => exact absurd hs (List.splitOn_ne_nil _ _)
    | cons first rest =>
      have htrim : trim (c :: first) = trim first := by
        rw [trim, dropBlanks, List.dropWhile_cons_of_pos hc]
        rfl
      rw [List.modifyHead_cons, List.map_cons, List.map_cons, htrim]

theorem significantLines_append {before : List Char} (h : allBlank before = true) (s : List Char) :
    significantLines (before ++ s) = significantLines s := by
  induction before with
  | nil => rfl
  | cons c before ih =>
    obtain ⟨hc, hbefore⟩ := Bool.and_eq_true_iff.1 h
    rw [List.cons_append, significantLines_cons hc, ih hbefore]

theorem significantLines_eq_cons {c : Char} (hc : isBlank c = false) (s : List Char) :
    ∃ rest lines, significantLines (c :: s) = (c :: rest) :: lines := by
  have hfeed : (c == '\n') = false := by
    rw [beq_eq_false_iff_ne]
    rintro rfl
    cases hc
  unfold significantLines
  rw [List.splitOn_cons_eq_if_modifyHead, hfeed, if_neg Bool.false_ne_true]
  cases hs : s.splitOn '\n' with
  | nil => exact absurd hs (List.splitOn_ne_nil _ _)
  | cons first rest =>
    have htrim : trim (c :: first) = c :: dropEndBlanks first := by
      rw [trim, dropBlanks_eq_self (unled_cons hc first), dropEndBlanks_cons hc]
    rw [List.modifyHead_cons, List.map_cons, htrim, List.filter_cons_of_pos rfl]
    exact ⟨_, _, rfl⟩

/-! ## JSON documents -/

theorem isBlank_of_isSpace {c : Char} (h : Json.isSpace c = true) : isBlank c = true := by
  simp only [Json.isSpace, Bool.or_eq_true, beq_iff_eq] at h
  rcases h with ((rfl | rfl) | rfl) | rfl <;> rfl

/-- A JSON object is recognized as JSON by its first line that is not blank. -/
theorem sniff_of_parseBytes? {content : List UInt8} {d : Document}
    (hparse : Json.parseBytes? content = some d) (hd : d.isObject = true) {n : Nat} (hn : 1 ≤ n)
    (fallback : Format) : sniff content n fallback = .json := by
  obtain ⟨s, hs, hparse⟩ := Option.bind_eq_some_iff.1 hparse
  obtain ⟨r, hbrace⟩ := Json.skipSpace_of_parse? hparse hd
  -- What stands before the brace is blank.
  have hsplit : s = s.takeWhile Json.isSpace ++ '\x7b' :: r := by
    rw [← hbrace]
    exact List.takeWhile_append_dropWhile.symm
  have hblank : allBlank (s.takeWhile Json.isSpace) = true := by
    rw [allBlank, List.all_eq_true]
    intro c hc
    exact isBlank_of_isSpace (List.all_eq_true.1 List.all_takeWhile c hc)
  obtain ⟨rest, lines, hlines⟩ := significantLines_eq_cons (c := '\x7b') rfl r
  obtain ⟨n, rfl⟩ := Nat.exists_eq_add_of_le' hn
  have hleading : leadingLines (n + 1) content = ('\x7b' :: rest) :: lines.take n := by
    rw [← take_significantLines, Utf8.decodeLenient_of_decode? hs, hsplit,
      significantLines_append hblank, hlines, List.take_succ_cons]
  rw [sniff_eq_iff, hleading]
  exact .marked (.brace rest) _

/-- **Whatever is JSON is parsed as JSON.** -/
theorem parse_sniffed (content : List UInt8) :
    (∀ d, Json.parseBytes? content = some d → d.isObject = true →
      ∀ (declared : Option Format) (settings : ImportSettings), 1 ≤ settings.sniffLines →
        parse content declared settings = .ok d) ∧
    ∀ (n : Nat) (fallback f : Format),
      sniff content n fallback = f ↔ Decides fallback (leadingLines n content) f := by
  refine ⟨fun d hparse hd declared settings hn => ?_, fun n fallback f => sniff_eq_iff content n⟩
  have hformat := sniff_of_parseBytes? hparse hd hn (declared.getD settings.defaultFormat)
  unfold parse
  simp only [hformat, parseAs?, hparse, hd, if_true]

/-- Blanks and blank lines before an object that has the text of a YAML key. -/
def indented : String := "\r\n \t\n  \x7b\"a\":\n\"openapi: 3\"\x7d"

/-- It is read as JSON even if YAML is declared, and so are lines like its first one. -/
theorem parse_indented :
    let d : Document := .object [("a", .string "openapi: 3")]
    Json.parseBytes? (Utf8.bytes indented) = some d ∧
      parse (Utf8.bytes indented) (some .yaml) { sniffLines := 1 } = .ok d ∧
      sniff (Utf8.bytes indented) 1 .yaml = .json := by
  intro d
  have hparse : Json.parseBytes? (Utf8.bytes indented) = some d := by
    rw [Json.parseBytes?, Utf8.bytes, Utf8.decode?_encode, Option.bind_some]
    have hkey := Json.takes_key "a" "\n\"openapi: 3\"\x7d".toList
    have hvalue : Json.Takes (Json.value? 126) "\n\"openapi: 3\"\x7d".toList
        (.string "openapi: 3") ['\x7d'] :=
      Json.takes_string rfl (Json.takes_chars "openapi: 3".toList ['\x7d'])
    exact Json.parse?_of_takes (Json.takes_object rfl rfl (Json.takes_last hkey hvalue)) rfl
  have hleading : leadingLines 1 (Utf8.bytes indented) = ["\x7b\"a\":".toList] := by
    decide +kernel
  obtain ⟨hjson, hsniff⟩ := parse_sniffed (Utf8.bytes indented)
  refine ⟨hparse, hjson d hparse rfl (some .yaml) _ (Nat.le_refl 1), (hsniff 1 .yaml .json).2 ?_⟩
  rw [hleading]
  exact .marked (.brace _) []

end ApiDouble.Import
