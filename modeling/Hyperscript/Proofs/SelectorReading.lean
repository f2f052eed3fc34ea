import Hyperscript.Proofs.SelectorFolding

namespace Hyperscript

open Text Info

variable {σ ν σ' ν' : Type}

namespace Text

theorem pieces_eq_splitOnP (cut : Char → Bool) (text : List Char) : pieces cut text = text.splitOnP cut := by
  induction text with
  | nil => rfl
  | cons c rest ih => rw [pieces, List.splitOnP_cons_eq_if_modifyHead, ih]

theorem intercalate_pieces (c : Char) (text : List Char) : [c].intercalate (pieces (· = c) text) = text := by
  rw [pieces_eq_splitOnP]
  exact List.intercalate_splitOn c

/-- A text is told by its pieces. -/
theorem pieces_inj {c : Char} {text other : List Char} :
    pieces (· = c) text = pieces (· = c) other ↔ text = other := by
  refine ⟨fun same => ?_, congrArg _⟩
  rw [← intercalate_pieces c text, same, intercalate_pieces]

/-- What is joined with cuts has the pieces of each part. -/
theorem pieces_append_flatMap_cons (c : Char) (text : List Char) (parts : List (List Char)) :
    pieces (· = c) (text ++ parts.flatMap (c :: ·)) = pieces (· = c) text ++ parts.flatMap (pieces (· = c)) := by
  induction parts generalizing text with
  | nil => simp
  | cons part rest ih =>
    rw [List.flatMap_cons, List.cons_append, pieces_append_cut (decide_eq_true rfl), ih, List.flatMap_cons]

end Text

namespace Selector

/-- The text of an element's id, empty where it has none, and its classes. -/
structure Selection where
  id : String
  classes : List String
  deriving DecidableEq, Repr

namespace Selection

/-- The id and the classes that an element has in the end. -/
def ofElement (space : Space) (element : Element) : Selection where
  id := ((lastValue? space "id" element.properties).map PropertyValue.spaced).getD ""
  classes := ((lastValue? space "class" element.properties).map PropertyValue.spacedWords).getD []

/-- What stands for them behind the tag. -/
def text (selection : Selection) : String :=
  (if selection.id = "" then "" else "#" ++ selection.id) ++ String.join (selection.classes.map ("." ++ ·))

/-- The id and the classes, cut at their dots. -/
def parts (selection : Selection) : List (List Char) :=
  pieces (· = '.') selection.id.toList ++ selection.classes.flatMap fun word => pieces (· = '.') word.toList

def Dotless (selection : Selection) : Prop :=
  '.' ∉ selection.id.toList ∧ ∀ word ∈ selection.classes, '.' ∉ word.toList

theorem text_ofElement (space : Space) (element : Element) :
    (ofElement space element).text =
      idText (lastValue? space "id" element.properties) ++ classText (lastValue? space "class" element.properties) := by
  have id : ∀ value : Option PropertyValue, idText value =
      if (value.map PropertyValue.spaced).getD "" = "" then ""
      else "#" ++ (value.map PropertyValue.spaced).getD "" := by
    rintro (_ | value) <;> rfl
  have classes : ∀ value : Option PropertyValue, classText value =
      String.join (((value.map PropertyValue.spacedWords).getD []).map ("." ++ ·)) := by
    rintro (_ | value) <;> rfl
  rw [id, classes]
  rfl

theorem ofElement_id_className (space : Space) (tag id : String) (tokens : List Token) :
    ofElement space
      { tag, properties := .ofList [("id", .text id), ("className", .list tokens)], children := [] } =
      ⟨id, (PropertyValue.list tokens).spacedWords⟩ := by
  have className : Schema.standard.find space "className" = classRow := find_of_common (by decide) space (by decide)
  simp [ofElement, lastValue?, Attributes.isKept, Attributes.isDropped, PropertyValue.isAbsent,
    Attributes.find_id, className, idRow, classRow, Traits.text, Traits.words, PropertyValue.spaced]

theorem ofElement_id (space : Space) (tag id : String) :
    ofElement space { tag, properties := .ofList [("id", .text id)], children := [] } = ⟨id, []⟩ := by
  simp [ofElement, lastValue?, Attributes.isKept, Attributes.isDropped, PropertyValue.isAbsent,
    Attributes.find_id, idRow, Traits.text, PropertyValue.spaced]

/-- What is written behind the mark of the id. -/
def dotted (selection : Selection) : List Char :=
  selection.id.toList ++ selection.classes.flatMap fun word => '.' :: word.toList

theorem pieces_dotted (selection : Selection) : pieces (· = '.') selection.dotted = selection.parts := by
  have joined := pieces_append_flatMap_cons '.' selection.id.toList (selection.classes.map String.toList)
  rwa [List.flatMap_map, List.flatMap_map] at joined

theorem toList_text (selection : Selection) :
    selection.text.toList = if selection.id = "" then selection.dotted else '#' :: selection.dotted := by
  have classes : (String.join (selection.classes.map ("." ++ ·))).toList =
      selection.classes.flatMap fun word => '.' :: word.toList := by
    rw [String.toList_join, List.flatMap_map]
    exact List.flatMap_congr fun word _ => String.toList_append
  rw [text, String.toList_append, classes, dotted]
  split
  · next none => rw [none]
  · rw [String.toList_append]
    rfl

theorem head_dotted {selection : Selection} (none : selection.id = "") : selection.dotted.head? ≠ some '#' := by
  rw [dotted, none]
  cases selection.classes with
  | nil => decide
  | cons word rest =>
    rw [List.flatMap_cons]
    simp

/-- Two selections are written alike if and only if both have an id or neither has, and they have the same parts. -/
theorem text_eq_iff (selection other : Selection) :
    selection.text = other.text ↔ (selection.id = "" ↔ other.id = "") ∧ selection.parts = other.parts := by
  rw [← String.toList_inj, toList_text, toList_text, ← pieces_dotted, ← pieces_dotted, pieces_inj]
  by_cases mine : selection.id = "" <;> by_cases theirs : other.id = ""
  · simp [mine, theirs]
  · have apart : selection.dotted ≠ '#' :: other.dotted := fun same => head_dotted mine (by rw [same]; rfl)
    simp [mine, theirs, apart]
  · have apart : '#' :: selection.dotted ≠ other.dotted := fun same => head_dotted theirs (by rw [← same]; rfl)
    simp [mine, theirs, apart]
  · simp [mine, theirs]

/-- Without dots the parts are the id and the classes themselves. -/
theorem parts_of_dotless {selection : Selection} (dotless : selection.Dotless) :
    selection.parts = selection.id.toList :: selection.classes.map String.toList := by
  have uncut : ∀ {word : String}, '.' ∉ word.toList → pieces (· = '.') word.toList = [word.toList] := by
    intro word absent
    refine pieces_of_uncut fun c member => decide_eq_false fun same => absent ?_
    rwa [← same]
  rw [parts, uncut dotless.1, List.singleton_append, List.map_eq_flatMap]
  exact congrArg _ (List.flatMap_congr fun word member => uncut (dotless.2 word member))

theorem text_eq_iff_of_dotless {selection other : Selection} (mine : selection.Dotless) (theirs : other.Dotless) :
    selection.text = other.text ↔ selection = other := by
  refine ⟨fun same => ?_, congrArg text⟩
  have parts := ((text_eq_iff selection other).mp same).2
  rw [parts_of_dotless mine, parts_of_dotless theirs, List.cons.injEq] at parts
  have injective : Function.Injective String.toList := fun _ _ => String.toList_inj.mp
  cases selection
  cases other
  exact congrArg₂ Selection.mk (String.toList_inj.mp parts.1) (List.map_injective_iff.mpr injective parts.2)

end Selection

end Selector

open Selector

/-- The id and the classes of an element as a walk meets it. -/
def Visit.selection (visit : Visit) : Selection :=
  Selection.ofElement visit.space visit.element

/-- A render in the selector dialect under the standard schema. -/
structure SelectorRender (σ ν : Type) where
  renderer : Renderer
  builder : Builder σ ν
  tree : Option Node
  element : Element
  start : Traced σ ν
  found : Renderer.rootElement tree = .ok element
  standard : renderer.schema = .standard
  selector : (builder.traced.detect start).1 = .selectorDom

namespace SelectorRender

variable (render : SelectorRender σ ν) (render' : SelectorRender σ' ν')

def outcome : EStateM.Result RenderError (Traced σ ν) ν :=
  render.renderer.render (some render.builder.traced) render.tree render.start

def rendering : Rendering (Traced σ ν) ν :=
  render.renderer.rendering render.builder.traced .selectorDom

/-- The elements of the tree in the order in which they are created. -/
def visits : List Visit :=
  Event.created (render.element.walk render.renderer.options.space)

/-- The calls after those of the trial. -/
def calls : List (Entry ν) :=
  (Traced.final render.outcome).calls.drop (render.builder.traced.detect render.start).2.calls.length

/-- The elements that were created or refused, each with its call. -/
def made : List (Visit × Entry ν) :=
  render.visits.zip render.calls

/-- Each call is made for the element at its place, and each element has its call if the render succeeds. -/
theorem exists_made : ∃ visits built, render.calls = visits.map (render.rendering.entryFor built) ∧
    render.made = visits.map (fun visit => (visit, render.rendering.entryFor built visit)) ∧
    ∀ result finish, render.outcome = .ok result finish → visits = render.visits := by
  obtain ⟨visits, built, ⟨rest, all⟩, _, calls, whole⟩ :=
    render.renderer.renderElement_calls render.builder render.element render.start
  rw [render.selector] at calls
  have outcome : render.outcome = render.renderer.renderElement render.builder.traced render.element render.start :=
    Renderer.render_of_ok render.found ..
  have made : render.calls = visits.map (render.rendering.entryFor built) := by
    rw [SelectorRender.calls, outcome, calls, List.drop_left]
    rfl
  refine ⟨visits, built, made, ?_, fun result finish done => whole result finish (outcome ▸ done)⟩
  have cut : (visits ++ rest).zip (render.calls ++ []) = visits.zip render.calls ++ rest.zip [] :=
    List.zip_append (by rw [made, List.length_map])
  rw [List.append_nil, List.zip_nil_right, List.append_nil, all] at cut
  rw [List.map_prod_left_eq_zip, ← made]
  exact cut

theorem outcome_of_element {node : ν} {finish : Progress (Traced σ ν)}
    (passed : render.rendering.element render.renderer.options.space render.element
      ⟨(render.builder.traced.detect render.start).2, 0⟩ = .ok node finish) :
    render.outcome = .ok node finish.builder := by
  rw [rendering] at passed
  rw [outcome, Renderer.render_of_ok render.found, Renderer.renderElement_eq, render.selector, passed]

theorem made_calls : render.made.map (·.2) = render.calls := by
  obtain ⟨visits, built, calls, made, _⟩ := render.exists_made
  rw [made, calls, List.map_map]
  rfl

theorem made_visits {result : ν} {finish : Traced σ ν} (done : render.outcome = .ok result finish) :
    render.made.map (·.1) = render.visits := by
  obtain ⟨visits, built, _, made, whole⟩ := render.exists_made
  rw [made, List.map_map, ← whole result finish done]
  exact List.map_id _

/-- A call is made in the name of its element, with the id and the classes of the element behind the tag. -/
theorem call_of_made {visit : Visit} {entry : Entry ν} (made : (visit, entry) ∈ render.made) :
    entry.call.context = some visit.element ∧
      entry.call.name = visit.element.tag ++ visit.selection.text := by
  obtain ⟨visits, built, _, pairs, _⟩ := render.exists_made
  rw [pairs] at made
  obtain ⟨visit, _, same⟩ := List.mem_map.mp made
  obtain ⟨rfl, rfl⟩ := Prod.mk.inj same
  have folds : ∃ shaped, render.rendering.shape visit.space visit.element = .ok shaped ∧
      FoldsSelector visit.space visit.element shaped := Rendering.shape_selectorDom rfl render.standard _ _
  obtain ⟨⟨name, left⟩, shaped, _, _, folded, _⟩ := folds
  obtain ⟨named, _, context⟩ := Rendering.entryFor_of_shape shaped built
  refine ⟨context, ?_⟩
  rw [named, Visit.selection, Selection.text_ofElement, ← String.append_assoc]
  exact folded

/-- What can be read back from names. The calls of a render behind the trial are those for its elements. Two elements
with one tag, of one render or of two, are called by the same name if and only if both have an id or neither has, and
they have the same parts. As long as no id and no class has a dot in it, these are the id and the classes, and the
names tell both. -/
theorem names_tell_parts :
    (render.made.map (·.2) = render.calls ∧
      ∀ visit entry, (visit, entry) ∈ render.made → entry.call.context = some visit.element) ∧
    ∀ visit entry visit' entry', (visit, entry) ∈ render.made → (visit', entry') ∈ render'.made →
      visit.element.tag = visit'.element.tag →
      (entry.call.name = entry'.call.name ↔
        (visit.selection.id = "" ↔ visit'.selection.id = "") ∧ visit.selection.parts = visit'.selection.parts) ∧
      (visit.selection.Dotless → visit'.selection.Dotless →
        (entry.call.name = entry'.call.name ↔ visit.selection = visit'.selection)) := by
  refine ⟨⟨render.made_calls, fun visit entry made => (render.call_of_made made).1⟩, ?_⟩
  intro visit entry visit' entry' made made' tags
  have names : entry.call.name = entry'.call.name ↔ visit.selection.text = visit'.selection.text := by
    rw [(render.call_of_made made).2, (render'.call_of_made made').2, tags]
    refine ⟨fun same => ?_, congrArg _⟩
    have letters := congrArg String.toList same
    rw [String.toList_append, String.toList_append] at letters
    exact String.toList_inj.mp (List.append_cancel_left letters)
  exact ⟨names.trans (Selection.text_eq_iff _ _), fun dotless dotless' =>
    names.trans (Selection.text_eq_iff_of_dotless dotless dotless')⟩

/-- A paragraph with some properties, rendered by itself. -/
def ofParagraph (properties : Properties) : SelectorRender Tally Nat where
  renderer := {}
  builder := (Script.imitate {} .selectorDom).builder
  tree := some (.element "p" properties [])
  element := { tag := "p", properties, children := [] }
  start := { state := {} }
  found := rfl
  standard := rfl
  selector := rfl

theorem exists_made_paragraph (properties : Properties) : ∃ visit entry,
    (visit, entry) ∈ (ofParagraph properties).made ∧ visit.space = .html ∧
      visit.element = { tag := "p", properties, children := [] } := by
  have space : Space.html.enter "p" = .html := rfl
  have passed : ∀ start, ∃ node finish,
      (ofParagraph properties).rendering.element .html { tag := "p", properties, children := [] } start =
        .ok node finish := by
    intro start
    have folds : ∃ shaped, (ofParagraph properties).rendering.shape .html { tag := "p", properties, children := [] } =
        .ok shaped ∧ FoldsSelector .html _ shaped := Rendering.shape_selectorDom rfl rfl _ _
    obtain ⟨_, shaped, _⟩ := folds
    simp only [Rendering.element, space, Rendering.buildElement, shaped]
    exact ⟨_, _, rfl⟩
  obtain ⟨node, finish, done⟩ := passed _
  have walk : (ofParagraph properties).visits = [⟨[], .html, 1, { tag := "p", properties, children := [] }⟩] := by
    simp [visits, ofParagraph, Element.walk, Element.toNode, Node.events, Node.eventsFrom, space]
  have met := made_visits _ (outcome_of_element _ done)
  rw [walk] at met
  obtain ⟨⟨visit, entry⟩, made, rfl⟩ := List.map_eq_singleton_iff.mp met
  exact ⟨_, entry, by rw [made]; exact List.mem_singleton_self _, rfl, rfl⟩

/-- Two paragraphs with one id and the same two classes, one of them with both classes in one item of its list. -/
theorem names_tell_parts_paragraphs : ∃ visit entry visit' entry',
    (visit, entry) ∈ (ofParagraph (.ofList [("id", .text "x"), ("className", .list [.text "a b"])])).made ∧
    (visit', entry') ∈ (ofParagraph (.ofList [("id", .text "x"), ("className", .list [.text "a", .text "b"])])).made ∧
    visit.element.tag = visit'.element.tag ∧ visit.selection.Dotless ∧ visit'.selection.Dotless ∧
    entry.call.name = entry'.call.name := by
  obtain ⟨visit, entry, made, space, element⟩ :=
    exists_made_paragraph (.ofList [("id", .text "x"), ("className", .list [.text "a b"])])
  obtain ⟨visit', entry', made', space', element'⟩ :=
    exists_made_paragraph (.ofList [("id", .text "x"), ("className", .list [.text "a", .text "b"])])
  have mine : visit.selection = ⟨"x", ["a", "b"]⟩ := by
    rw [Visit.selection, space, element, Selection.ofElement_id_className]
    decide +kernel
  have theirs : visit'.selection = ⟨"x", ["a", "b"]⟩ := by
    rw [Visit.selection, space', element', Selection.ofElement_id_className]
    decide +kernel
  have dotless : Selection.Dotless ⟨"x", ["a", "b"]⟩ := by
    simp [Selection.Dotless]
  have tags : visit.element.tag = visit'.element.tag := by rw [element, element']
  have tells := names_tell_parts (ofParagraph (.ofList [("id", .text "x"), ("className", .list [.text "a b"])]))
    (ofParagraph (.ofList [("id", .text "x"), ("className", .list [.text "a", .text "b"])]))
  have same := (tells.2 visit entry visit' entry' made made' tags).2 (mine ▸ dotless) (theirs ▸ dotless)
  exact ⟨visit, entry, visit', entry', made, made', tags, mine ▸ dotless, theirs ▸ dotless,
    same.mpr (mine.trans theirs.symm)⟩

/-- A dot in an id reads as the beginning of a class: two paragraphs that differ in id and in classes have one
name. -/
theorem dotted_id_named_as_class : ∃ visit entry visit' entry',
    (visit, entry) ∈ (ofParagraph (.ofList [("id", .text "a.b")])).made ∧
    (visit', entry') ∈ (ofParagraph (.ofList [("id", .text "a"), ("className", .list [.text "b"])])).made ∧
    visit.element.tag = visit'.element.tag ∧ entry.call.name = entry'.call.name ∧
    visit.selection = ⟨"a.b", []⟩ ∧ visit'.selection = ⟨"a", ["b"]⟩ := by
  obtain ⟨visit, entry, made, space, element⟩ := exists_made_paragraph (.ofList [("id", .text "a.b")])
  obtain ⟨visit', entry', made', space', element'⟩ :=
    exists_made_paragraph (.ofList [("id", .text "a"), ("className", .list [.text "b"])])
  have mine : visit.selection = ⟨"a.b", []⟩ := by
    rw [Visit.selection, space, element, Selection.ofElement_id]
  have theirs : visit'.selection = ⟨"a", ["b"]⟩ := by
    rw [Visit.selection, space', element', Selection.ofElement_id_className]
    decide +kernel
  have name := (call_of_made _ made).2
  have name' := (call_of_made _ made').2
  rw [mine, element] at name
  rw [theirs, element'] at name'
  have folded : "p" ++ Selection.text ⟨"a.b", []⟩ = "p" ++ Selection.text ⟨"a", ["b"]⟩ := by decide +kernel
  exact ⟨visit, entry, visit', entry', made, made', by rw [element, element'], name.trans (folded.trans name'.symm),
    mine, theirs⟩

end SelectorRender

end Hyperscript
