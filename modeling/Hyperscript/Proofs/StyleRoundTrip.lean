import Hyperscript.Proofs.StyleFound

namespace Hyperscript.Style

theorem Layout.printable {declarations : List Declaration} {text : List Char} (layout : Layout declarations text) :
    ∀ declaration ∈ declarations,
      PrintableName declaration.name.toList ∧ PrintableValue declaration.value.toList := by
  induction layout with
  | empty => exact nofun
  | last _ spelled _ =>
    obtain ⟨_, _, _, _, goodName, goodValue⟩ := spelled
    exact List.forall_mem_singleton.mpr ⟨goodName, goodValue⟩
  | more _ spelled _ _ ih =>
    obtain ⟨_, _, _, _, goodName, goodValue⟩ := spelled
    exact List.forall_mem_cons.mpr ⟨⟨goodName, goodValue⟩, ih⟩

theorem layout_print {declarations : List Declaration} (printable : ∀ declaration ∈ declarations,
    PrintableName declaration.name.toList ∧ PrintableValue declaration.value.toList) :
    Layout declarations (print declarations) := by
  have spelled : ∀ declaration ∈ declarations, Spelled declaration
      (declaration.name.toList ++ ':' :: declaration.value.toList) := by
    intro declaration member
    obtain ⟨goodName, goodValue⟩ := printable declaration member
    have plain := Spelled.mk .nil .nil .nil .nil goodName goodValue
    simpa using plain
  fun_induction print declarations with
  | case1 => exact .empty .nil
  | case2 only =>
    have layout := Layout.last .nil (spelled only (List.mem_singleton_self only)) .nil
    simpa using layout
  | case3 declaration rest more ih =>
    have layout := Layout.more .nil (spelled declaration (List.mem_cons_self ..)) .nil
      (ih (fun other member => printable other (List.mem_cons_of_mem _ member))
        fun other member => spelled other (List.mem_cons_of_mem _ member))
    simpa using layout

/-- Declarations survive being laid out and read again: every layout of printable declarations is read as
them. What is read from a text without comments is printable, the text is a layout of it up to a closing
brace, and printing it and reading it again changes nothing. -/
theorem parseDeclarations_round_trip :
    (∀ declarations text, Layout declarations text.toList → parseDeclarations text = .ok declarations) ∧
    ∀ text declarations, Uncommented text.toList → parseDeclarations text = .ok declarations →
      (∀ declaration ∈ declarations,
        PrintableName declaration.name.toList ∧ PrintableValue declaration.value.toList) ∧
      (∃ laidOut rest, text.toList = laidOut ++ rest ∧ Layout declarations laidOut ∧
        ∀ c ∈ rest.head?, c = '\x7d') ∧
      parseDeclarations (String.ofList (print declarations)) = .ok declarations := by
  refine ⟨fun declarations text layout => parseDeclarations_of_layout layout, ?_⟩
  intro text declarations clear read
  unfold parseDeclarations at read
  split at read
  · cases read
  · next found rest there =>
    cases read
    obtain ⟨laidOut, whole, layout, stops⟩ := pairs_found clear there
    refine ⟨layout.printable, ⟨laidOut, rest, whole, layout, stops⟩, parseDeclarations_of_layout ?_⟩
    rw [String.toList_ofList]
    exact layout_print layout.printable

theorem parseDeclarations_round_trip_small :
    parseDeclarations ";a/**/:(;)" = .ok [⟨"a", "(;)"⟩] ∧
      parseDeclarations (String.ofList (print [⟨"a", "';'"⟩])) = .ok [⟨"a", "';'"⟩] := by
  have commented : Layout [⟨"a", "(;)"⟩] ";a/**/:(;)".toList := by
    have gap : Gap ['/', '*', '*', '/'] := .comment (show ¬ ['*', '/'] <:+: [] by decide) .nil
    exact .last (.char rfl .nil : Filler [';']) (.mk .nil gap .nil .nil (by decide) (by decide)) .nil
  have plain : Layout [⟨"a", "';'"⟩] "a:';';".toList :=
    .last .nil (.mk .nil .nil .nil .nil (by decide) (by decide)) (.char rfl .nil : Filler [';'])
  have clear : Uncommented "a:';';".toList := by
    intro before body after same
    have slash : '/' ∈ "a:';';".toList := by rw [same]; simp
    exact absurd slash (by decide)
  have read := parseDeclarations_round_trip.1 _ _ plain
  exact ⟨parseDeclarations_round_trip.1 _ _ commented, (parseDeclarations_round_trip.2 _ _ clear read).2.2⟩

end Hyperscript.Style
