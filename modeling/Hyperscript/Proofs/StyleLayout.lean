import Hyperscript.Proofs.StyleRun

namespace Hyperscript.Style

open Text

/-- What may stand in a declaration may stand between declarations. -/
theorem Gap.filler {text : List Char} (gap : Gap text) : Filler text := by
  induction gap with
  | nil => exact .nil
  | char passes _ ih => exact .char (by simp [passes]) ih
  | comment inside _ ih => exact .comment inside ih

theorem Trivia.append {passes : Char → Bool} {first second : List Char} (before : Trivia passes first)
    (after : Trivia passes second) : Trivia passes (first ++ second) := by
  induction before with
  | nil => exact after
  | char passed _ ih => exact .char passed ih
  | comment inside _ ih =>
    simp only [List.cons_append, List.append_assoc]
    exact .comment inside ih

/-- Filler is a gap up to its first semicolon. -/
theorem Filler.exists_gap {text : List Char} (filler : Filler text) : ∃ gap rest, Gap gap ∧
    text = gap ++ rest ∧ Filler rest ∧ ∀ c ∈ rest.head?, c = ';' := by
  induction filler with
  | nil => exact ⟨[], [], .nil, rfl, .nil, forall_mem_none⟩
  | @char c text passes later ih =>
    by_cases blank : isBlank c = true
    · obtain ⟨gap, rest, isGap, rfl, found⟩ := ih
      exact ⟨c :: gap, rest, .char blank isGap, rfl, found⟩
    · have semicolon : c = ';' := by simpa [blank] using passes
      refine ⟨[], c :: text, .nil, rfl, .char passes later, ?_⟩
      rintro _ ⟨rfl⟩
      exact semicolon
  | @comment body text inside _ ih =>
    obtain ⟨gap, rest, isGap, rfl, found⟩ := ih
    refine ⟨'/' :: '*' :: (body ++ '*' :: '/' :: gap), rest, .comment inside isGap, ?_, found⟩
    simp

theorem Gap.head?_ne {text follow : List Char} (gap : Gap text) (behind : follow.head? ≠ some '*') :
    (text ++ follow).head? ≠ some '*' := by
  cases gap with
  | nil => exact behind
  | @char c _ passes _ =>
    intro star
    rw [Option.some.inj star] at passes
    exact absurd passes (by decide)
  | comment =>
    intro star
    cases star

/-- A printable name is read back, with a gap between it and its colon. -/
theorem name_spelled {chars gap rest : List Char} (printable : PrintableName chars) (isGap : Gap gap) :
    name (chars ++ gap ++ ':' :: rest) = .ok (chars, rest) := by
  obtain ⟨blanks, blank, read⟩ := nameChars_gap isGap
  have found : nameChars (chars ++ gap ++ ':' :: rest) = .ok (chars ++ blanks, rest) := by
    rw [List.append_assoc, nameChars_append printable.no_colon printable.no_semicolon printable.no_comment
      (isGap.head?_ne (by simp)), read, prepend_prepend, nameChars_cons, if_pos rfl]
    simp [prepend]
  have trimmed : trim ([] ++ chars ++ blanks) = chars := printable.trimmed.trim_eq (List.forall_mem_nil _) blank
  rw [List.nil_append] at trimmed
  rw [name, found]
  simp only [trimmed, if_neg printable.nonempty]

/-- A printable value is read back, with gaps around it, if a delimiter or nothing follows. -/
theorem value_spelled {before chars after rest : List Char} (first : Gap before)
    (printable : PrintableValue chars) (last : Gap after) (ends : ∀ c ∈ rest.head?, c = ';' ∨ c = '\x7d') :
    value (before ++ chars ++ after ++ rest) = .ok (chars, rest) := by
  obtain ⟨left, leftBlank, readLeft⟩ := valueChars_gap first
  obtain ⟨right, rightBlank, readRight⟩ := valueChars_gap last
  have ended : valueChars [] rest = .ok ([], rest) := by
    cases rest with
    | nil => rw [valueChars]; rfl
    | cons c rest =>
      rw [valueChars_cons]
      rcases ends c rfl with rfl | rfl <;> rfl
  have behind : (after ++ rest).head? ≠ some '*' := by
    refine last.head?_ne fun star => ?_
    rcases ends '*' star with same | same <;> exact absurd same (by decide)
  have closed : mayGoOn none (List.length ([] : Nesting)) chars = true := printable.closed
  have found : valueChars [] (before ++ chars ++ after ++ rest) = .ok (left ++ chars ++ right, rest) := by
    rw [List.append_assoc, List.append_assoc, readLeft, valueChars_append closed behind, readRight,
      ended]
    simp [prepend]
  rw [value, found]
  simp only [printable.trimmed.trim_eq leftBlank rightBlank]

/-- A printable name is no filler, so the loop begins a declaration with it. -/
theorem skipTrivia_name {chars rest : List Char} (printable : PrintableName chars)
    (behind : rest.head? ≠ some '*') : skipTrivia (chars ++ rest) = .ok (chars ++ rest) := by
  cases chars with
  | nil => exact absurd rfl printable.nonempty
  | cons c chars =>
    have blank := printable.trimmed.start c rfl
    have semicolon : c ≠ ';' := fun same => printable.no_semicolon (same ▸ List.mem_cons_self ..)
    rw [List.cons_append, skipTrivia_cons, if_neg (by simp [blank, semicolon]),
      comment_absent_of_no_comment printable.no_comment behind]

theorem pairs_filler {text : List Char} (filler : Filler text) (rest : List Char) :
    pairs (text ++ rest) = pairs rest := by
  rw [pairs_eq, skipTrivia_filler filler, ← pairs_eq]

/-- A laid out declaration is read first, and then what stands behind it. -/
theorem pairs_spelled {declaration : Declaration} {lead spelling between follow after : List Char}
    {others : List (List Char × List Char)} (before : Filler lead) (spelled : Spelled declaration spelling)
    (behind : Filler between) (ends : ∀ c ∈ follow.head?, c = ';') (read : pairs follow = .ok (others, after)) :
    pairs (lead ++ spelling ++ between ++ follow) =
      .ok ((declaration.name.toList, declaration.value.toList) :: others, after) := by
  obtain @⟨a, b, c, d, gapA, gapB, gapC, gapD, goodName, goodValue⟩ := spelled
  obtain ⟨gap, rest, isGap, rfl, isRest, startsRest⟩ := behind.exists_gap
  have ended : ∀ c ∈ (rest ++ follow).head?, c = ';' ∨ c = '\x7d' := by
    intro c member
    cases rest with
    | nil => exact Or.inl (ends c member)
    | cons => exact Or.inl (startsRest c member)
  cases written : declaration.name.toList with
  | nil => exact absurd written goodName.nonempty
  | cons n chars =>
    rw [written] at goodName
    have named : name (n :: chars ++ b ++ ':' :: (c ++ declaration.value.toList ++ (d ++ gap) ++ (rest ++ follow))) =
        _ := name_spelled goodName gapB
    have started : skipTrivia (lead ++ (a ++ n :: chars ++ b ++ ':' :: (c ++ declaration.value.toList ++ d)) ++
        (gap ++ rest) ++ follow) = .ok (n :: chars ++ b ++
          ':' :: (c ++ declaration.value.toList ++ (d ++ gap) ++ (rest ++ follow))) := by
      have skipped := skipTrivia_filler (before.append gapA.filler) (n :: chars ++ b ++
        ':' :: (c ++ declaration.value.toList ++ (d ++ gap) ++ (rest ++ follow)))
      rw [List.append_assoc (n :: chars), skipTrivia_name goodName (gapB.head?_ne (by simp))] at skipped
      simpa using skipped
    have brace : n ≠ '\x7d' := fun same => goodName.no_brace (same ▸ rfl)
    have round : Round _ _ _ _ (n :: chars, declaration.value.toList) :=
      ⟨⟨started, n, rfl, brace⟩, named, value_spelled gapC goodValue (gapD.append isGap) ended⟩
    rw [round.pairs_eq, pairs_filler isRest, read]
    rfl

/-- A layout is read as the declarations that it lays out, and nothing is left over. -/
theorem pairs_layout {declarations : List Declaration} {text : List Char} (layout : Layout declarations text) :
    pairs text = .ok (declarations.map fun declaration =>
      (declaration.name.toList, declaration.value.toList), []) := by
  have nothing : pairs [] = .ok ([], []) := by rw [pairs_eq, skipTrivia]
  induction layout with
  | @empty tail filler =>
    have read := pairs_filler filler []
    rwa [List.append_nil, nothing] at read
  | @last declaration lead spelling tail before spelled behind =>
    have read : pairs (lead ++ spelling ++ tail ++ []) = _ :=
      pairs_spelled before spelled behind forall_mem_none nothing
    rwa [List.append_nil] at read
  | @more declaration rest lead spelling between later before spelled behind _ ih =>
    refine pairs_spelled before spelled behind (fun c same => (Option.some.inj same).symm) ?_
    rw [← ih]
    exact pairs_filler (.char rfl .nil : Filler [';']) later

theorem parseDeclarations_of_layout {declarations : List Declaration} {text : String}
    (layout : Layout declarations text.toList) : parseDeclarations text = .ok declarations := by
  simp only [parseDeclarations, pairs_layout layout, List.map_map]
  congr 1
  simp [Function.comp_def]

end Hyperscript.Style
