import Hyperscript.Proofs.Placement
import Hyperscript.Proofs.StyleExtension
import Hyperscript.Proofs.StyleFaultPlaces

namespace Hyperscript.Style

open Text

/-- A text is read to its end. -/
def ReadsToEnd (text : List Char) : Prop :=
  ∃ found, pairs text = .ok (found, [])

/-- A text is read up to a closing brace. -/
def StopsAtBrace (text : List Char) : Prop :=
  ∃ found rest, pairs text = .ok (found, '\x7d' :: rest)

/-- The style that some declarations make: a name stands where it first occurs, with its last value. -/
structure IsStyleOf (declarations : List Declaration) (style : OrderedMap String) : Prop where
  names : style.keys = (declarations.map fun declaration => camelCase declaration.name).eraseDups
  values : ∀ name, style.get? name =
    (declarations.filter fun declaration => camelCase declaration.name = name).getLast?.map (·.value)

/-- A style with a declaration written into it. -/
def write (style : OrderedMap String) (declaration : Declaration) : OrderedMap String :=
  style.insert (camelCase declaration.name) declaration.value

/-- A text that is read to its end may go on with a delimiter: the declarations behind come behind its own. -/
theorem pairs_append {text more : List Char} {found : List (List Char × List Char)}
    (read : pairs text = .ok (found, [])) (ends : Ends more) :
    pairs (text ++ more) = (pairs more).map fun later => (found ++ later.1, later.2) := by
  obtain ⟨left, reach, stops⟩ := pairs_eq_ok_iff.mp read
  have passed := skipTrivia_extend stops.skipped more
  rw [(reach.extend fun _ => ends).pairs_eq, pairs_eq (left ++ more), passed, List.nil_append, ← pairs_eq]

/-- Nothing behind a closing brace is read. -/
theorem pairs_extend {text rest : List Char} {found : List (List Char × List Char)}
    (read : pairs text = .ok (found, '\x7d' :: rest)) (more : List Char) :
    pairs (text ++ more) = .ok (found, '\x7d' :: rest ++ more) := by
  obtain ⟨left, reach, stops⟩ := pairs_eq_ok_iff.mp read
  have some : left = [] → Ends more := by
    rintro rfl
    have skipped := stops.skipped
    rw [skipTrivia] at skipped
    cases skipped
  refine (reach.extend some).pairs_of_stops ⟨?_, (stops_brace (rest ++ more)).ends⟩
  rw [skipTrivia_extend stops.skipped]
  exact skipTrivia_brace (rest ++ more)

/-- A text that is read is read to its end or up to a closing brace. -/
theorem readsToEnd_or_stopsAtBrace {text : String} {declarations : List Declaration}
    (read : parseDeclarations text = .ok declarations) : ReadsToEnd text.toList ∨ StopsAtBrace text.toList := by
  obtain ⟨found, rest, there, _⟩ := parseDeclarations_eq_ok_iff.mp read
  obtain ⟨_, _, stops⟩ := pairs_eq_ok_iff.mp there
  cases rest with
  | nil => exact Or.inl ⟨found, there⟩
  | cons c rest => exact Or.inr ⟨found, rest, stops.ends c rfl ▸ there⟩

/-- A semicolon ends a value and begins nothing, so what stands behind it is read as if it stood alone. -/
theorem pairs_seam {text : List Char} {found : List (List Char × List Char)} (read : pairs text = .ok (found, []))
    (later : List Char) :
    pairs (text ++ ';' :: later) = (pairs later).map fun others => (found ++ others.1, others.2) := by
  have ends : Ends (';' :: later) := by
    rintro _ ⟨rfl⟩
    exact Or.inl rfl
  rw [pairs_append read ends]
  exact congrArg _ (pairs_filler (.char rfl .nil : Filler [';']) later)

theorem parseStyle_eq_ok {text : String} {declarations : List Declaration}
    (read : parseDeclarations text = .ok declarations) : parseStyle text = .ok (declarations.foldl write ∅) := by
  rw [parseStyle, read]
  simp only [OrderedMap.ofList, List.foldl_map]
  rfl

theorem parseStyle_eq_error {text : String} {error : Error} (failed : parseDeclarations text = .error error) :
    parseStyle text = .error error := by
  rw [parseStyle, failed]

theorem IsStyleOf.write {declarations : List Declaration} {style : OrderedMap String}
    (same : IsStyleOf declarations style) (declaration : Declaration) :
    IsStyleOf (declarations ++ [declaration]) (write style declaration) := by
  constructor
  · rw [Style.write, OrderedMap.keys_insert, same.names, List.map_append, List.map_singleton,
      Attributes.eraseDups_append_singleton]
  · intro name
    rw [Style.write, OrderedMap.get?_insert, same.values, List.filter_append, List.getLast?_append]
    by_cases named : camelCase declaration.name = name
    · simp [named]
    · simp [named, Ne.symm named]

theorem isStyleOf_foldl (declarations : List Declaration) :
    IsStyleOf declarations (declarations.foldl write ∅) := by
  induction declarations using List.reverseRecOn with
  | nil => exact ⟨rfl, fun _ => rfl⟩
  | append_singleton declarations declaration ih =>
    rw [List.foldl_append]
    exact ih.write declaration

section Seam

variable {text : String} {declarations : List Declaration} (read : parseDeclarations text = .ok declarations)

include read

theorem ReadsToEnd.pairs_seam (ends : ReadsToEnd text.toList) : ∃ found, declarations = found.map declarationOf ∧
    ∀ later : String, pairs (text ++ ";" ++ later).toList =
      (pairs later.toList).map fun others => (found ++ others.1, others.2) := by
  obtain ⟨found, whole⟩ := ends
  refine ⟨found, declarations_eq read whole, fun later => ?_⟩
  rw [← Style.pairs_seam whole later.toList]
  simp

theorem ReadsToEnd.read_seam (ends : ReadsToEnd text.toList) {later : String} {others : List Declaration}
    (readLater : parseDeclarations later = .ok others) :
    parseDeclarations (text ++ ";" ++ later) = .ok (declarations ++ others) := by
  obtain ⟨found, rfl, seam⟩ := ends.pairs_seam read
  obtain ⟨foundLater, rest, there, rfl⟩ := parseDeclarations_eq_ok_iff.mp readLater
  refine parseDeclarations_eq_ok_iff.mpr ⟨found ++ foundLater, rest, ?_, List.map_append.symm⟩
  rw [seam, there]
  rfl

/-- A fault of what stands behind the semicolon is at the same character of the whole. -/
theorem ReadsToEnd.fail_seam (ends : ReadsToEnd text.toList) {later : String} {error : Error}
    (failed : parseDeclarations later = .error error) :
    ∃ index shifted, (∀ other, error.IsAt later other ↔ other = index) ∧
      parseDeclarations (text ++ ";" ++ later) = .error shifted ∧ shifted.kind = error.kind ∧
      ∀ other, shifted.IsAt (text ++ ";" ++ later) other ↔ other = text.length + 1 + index := by
  obtain ⟨found, _, seam⟩ := ends.pairs_seam read
  obtain ⟨fault, there, rfl⟩ := parseDeclarations_eq_error_iff.mp failed
  obtain ⟨before, split, _⟩ := pairs_offends there
  have splitWhole : (text ++ ";" ++ later).toList = (text.toList ++ ';' :: before) ++ fault.rest := by simp [split]
  have fails : pairs (text ++ ";" ++ later).toList = .error fault := by rw [seam, there]; rfl
  refine ⟨before.length, _, Fault.isAt_locate split, parseDeclarations_eq_error_iff.mpr ⟨fault, fails, rfl⟩, rfl,
    fun other => ?_⟩
  rw [Fault.isAt_locate splitWhole, List.length_append, List.length_cons, String.length_toList]
  omega

theorem StopsAtBrace.read_append (stops : StopsAtBrace text.toList) (later : String) :
    parseDeclarations (text ++ later) = .ok declarations := by
  obtain ⟨found, rest, whole⟩ := stops
  have longer := pairs_extend whole later.toList
  rw [← String.toList_append] at longer
  exact parseDeclarations_eq_ok_iff.mpr ⟨_, _, longer, declarations_eq read whole⟩

end Seam

/-- Two texts with a semicolon between them are read one after the other, and what stands behind a closing
brace is not read. -/
theorem declarations_compose {text : String} {declarations : List Declaration}
    (read : parseDeclarations text = .ok declarations) :
    (ReadsToEnd text.toList ∨ StopsAtBrace text.toList) ∧
    (ReadsToEnd text.toList → ∀ later : String,
      (∀ others, parseDeclarations later = .ok others →
        parseDeclarations (text ++ ";" ++ later) = .ok (declarations ++ others) ∧
        ∃ style, parseStyle text = .ok style ∧
          parseStyle (text ++ ";" ++ later) = .ok (others.foldl write style) ∧
          IsStyleOf (declarations ++ others) (others.foldl write style)) ∧
      ∀ error, parseDeclarations later = .error error →
        ∃ index shifted, (∀ other, error.IsAt later other ↔ other = index) ∧
          parseDeclarations (text ++ ";" ++ later) = .error shifted ∧
          parseStyle (text ++ ";" ++ later) = .error shifted ∧ shifted.kind = error.kind ∧
          ∀ other, shifted.IsAt (text ++ ";" ++ later) other ↔ other = text.length + 1 + index) ∧
    (StopsAtBrace text.toList → ∀ later : String, parseDeclarations (text ++ later) = parseDeclarations text) := by
  refine ⟨readsToEnd_or_stopsAtBrace read, fun ends later => ⟨fun others readLater => ?_, fun error failed => ?_⟩, ?_⟩
  · have both := ends.read_seam read readLater
    refine ⟨both, _, parseStyle_eq_ok read, ?_, ?_⟩
    · rw [parseStyle_eq_ok both, List.foldl_append]
    · rw [← List.foldl_append]
      exact isStyleOf_foldl _
  · obtain ⟨index, shifted, place, fails, kind, placeWhole⟩ := ends.fail_seam read failed
    exact ⟨index, shifted, place, fails, parseStyle_eq_error fails, kind, placeWhole⟩
  · intro stops later
    rw [stops.read_append read later, read]

theorem declarations_compose_color :
    (parseDeclarations ("color:red" ++ ";" ++ "x:1;color:blue") =
        .ok [⟨"color", "red"⟩, ⟨"x", "1"⟩, ⟨"color", "blue"⟩] ∧
      ∃ style, parseStyle ("color:red" ++ ";" ++ "x:1;color:blue") = .ok style ∧
        IsStyleOf [⟨"color", "red"⟩, ⟨"x", "1"⟩, ⟨"color", "blue"⟩] style) ∧
    (∃ shifted, parseDeclarations ("color:red" ++ ";" ++ "\n:x") = .error shifted ∧
      shifted.kind = .missingName ∧ shifted.IsAt ("color:red" ++ ";" ++ "\n:x") 11) ∧
    parseDeclarations ("color:red\x7d" ++ ";x") = parseDeclarations "color:red\x7d" := by
  have read : parseDeclarations "color:red" = .ok [⟨"color", "red"⟩] := by decide +kernel
  have readBraced : parseDeclarations "color:red\x7d" = .ok [⟨"color", "red"⟩] := by decide +kernel
  have ends : ReadsToEnd "color:red".toList := ⟨[("color".toList, "red".toList)], by decide +kernel⟩
  have stops : StopsAtBrace "color:red\x7d".toList := ⟨[("color".toList, "red".toList)], [], by decide +kernel⟩
  have readLater : parseDeclarations "x:1;color:blue" = .ok [⟨"x", "1"⟩, ⟨"color", "blue"⟩] := by decide +kernel
  have failed : parseDeclarations "\n:x" = .error ⟨.missingName, ⟨2, 1⟩⟩ := by decide +kernel
  have behind : (⟨2, 1⟩ : Position) = .behind ("\n:x".toList.take 1) := by decide
  have here : Error.IsAt ⟨.missingName, ⟨2, 1⟩⟩ "\n:x" 1 := ⟨by decide, behind ▸ isBehind_behind _⟩
  refine ⟨?_, ?_, (declarations_compose readBraced).2.2 stops ";x"⟩
  · obtain ⟨both, _, _, updated, same⟩ := ((declarations_compose read).2.1 ends _).1 _ readLater
    exact ⟨both, _, updated, same⟩
  · obtain ⟨index, shifted, place, fails, _, kind, placeWhole⟩ := ((declarations_compose read).2.1 ends _).2 _ failed
    obtain rfl : 1 = index := (place 1).mp here
    exact ⟨shifted, fails, kind, (placeWhole _).mpr (by decide)⟩

end Hyperscript.Style
