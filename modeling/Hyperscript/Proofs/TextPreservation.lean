import Hyperscript.Proofs.LinearUse
import Hyperscript.Proofs.NumberedNodes
import Hyperscript.Proofs.TextReading

namespace Hyperscript

variable {σ ν : Type}

/-- An element that a tree is rendered as has the text of the tree. -/
theorem Node.RendersAs.textOfAll {tree : Node} {element : Element} (same : tree.RendersAs element) :
    Node.textOfAll element.children = tree.textContent := by
  rcases same with rfl | rfl | ⟨children, rfl, _, rfl⟩
  · rw [Element.toNode, Node.textContent]
  · rw [Node.textContent, Node.textOfAll, Node.textOfAll, String.append_empty, Element.toNode, Node.textContent]
  · rw [Node.textContent]

theorem Node.RendersAs.areRootless {tree : Node} {element : Element} (same : tree.RendersAs element)
    (flat : Node.areRootless tree.children = true) : Node.areRootless element.children = true := by
  rcases same with rfl | rfl | ⟨children, rfl, _, rfl⟩
  · exact flat
  · simpa only [Node.children, Node.areRootless, Element.toNode, Node.isRootless, Bool.and_true] using flat
  · exact flat

namespace Rendering

variable {builder : Builder σ ν} {rendering : Rendering (Traced σ ν) ν} {element : Element} {space : Space}
  {desk final : Desk (Traced σ ν) ν}

/-- After a whole walk each call of an element has taken what belongs in it, and no call but that for a node's own
element has given the node. -/
theorem run_recorded (recorded : rendering.builder = builder.traced) (result : ν)
    (passed : rendering.run (element.walk space) desk = .ok () final)
    (distinct : (final.builder.calls.filterMap Entry.node).Nodup) :
    Node.Recorded final.builder.calls (fun place => (final.built place).getD result) [] element.toNode := by
  have order := element.walk_precedes space
  have built : ∀ visit ∈ Event.created (element.walk space),
      final.built visit.place = some ((final.built visit.place).getD result) := by
    intro visit created
    obtain ⟨node, found⟩ := run_builds order passed created
    rw [found, Option.getD_some]
  intro place below found children
  obtain ⟨visit, created, rfl, rfl⟩ := Node.created_of_elementAt? [] space 1 element.toNode place found
  have taken : BuiltFrom final.builder.calls ((final.built visit.place).getD result)
      (Node.childrenFrom (fun place => (final.built place).getD result) visit.place 0 visit.element.children) := by
    refine ⟨rendering.entryFor final.built visit, ?_, built visit created, ?_⟩
    · rw [run_ok_calls recorded order passed]
      exact List.mem_append_right _ (List.mem_map_of_mem created)
    · have under : ∀ child ∈ visit.childPlaces, final.built child = some ((final.built child).getD result) := by
        intro child member
        obtain ⟨other, earlier, rfl⟩ := List.mem_map.mp (walk_childPlaces_perm.subset
          (List.mem_append_left _ (List.mem_flatMap.mpr ⟨visit, created, member⟩)))
        exact built other earlier
      rw [entryFor_children under]
      split
      · next none => exact ((Node.childrenFrom_eq_nil_iff _ _ _ _).mpr none).symm
      · rfl
  exact ⟨fun same => same.unique distinct taken, fun same => same ▸ taken⟩

end Rendering

namespace Renderer

/-- A successful render is a walk to its end. -/
theorem run_of_renderElement {renderer : Renderer} {builder : Builder σ ν} {element : Element} {start finish : σ}
    {result : ν} (rendered : renderer.renderElement builder element start = .ok result finish) : ∃ desk,
      (renderer.rendering builder (builder.detect start).1).run (element.walk renderer.options.space)
        (emptyDesk (builder.detect start).2) = .ok () desk ∧
      desk.built [] = some result ∧ desk.builder = finish := by
  have ends := renderer.renderElement_ends builder element start
  split at ends
  · next desk passed =>
    obtain ⟨node, here, outcome⟩ := ends
    rw [rendered] at outcome
    cases outcome
    exact ⟨desk, passed, here, rfl⟩
  · next error desk failed =>
    rw [rendered] at ends
    cases ends

/-- Where no node was given twice, the text that is read from the result is that of the tree, and no other can be
read. -/
theorem reads_result_iff {renderer : Renderer} {builder : Builder σ ν} {tree : Node} {start finish : Traced σ ν}
    {result : ν} (flat : Node.areRootless tree.children = true)
    (rendered : renderer.render (some builder.traced) (some tree) start = .ok result finish)
    (distinct : (finish.calls.filterMap Entry.node).Nodup) (text : String) :
    Reads finish.calls [.node result] text ↔ text = tree.textContent := by
  cases found : rootElement (some tree) with
  | error error => rw [render_of_error found] at rendered; cases rendered
  | ok element =>
    rw [render_of_ok found] at rendered
    obtain ⟨desk, passed, here, rfl⟩ := run_of_renderElement rendered
    have same := rendersAs_of_rootElement found
    have recorded := Rendering.run_recorded rfl result passed distinct
    have flat' : element.toNode.isRootless = true := by
      rw [Element.toNode, Node.isRootless]
      exact same.areRootless flat
    have whole : element.toNode.childFrom? (fun place => (desk.built place).getD result) [] = some (.node result) := by
      simp only [Element.toNode, Node.childFrom?, here, Option.getD_some]
    have read : Reads desk.builder.calls ((some (Child.node result)).toList ++ []) text ↔ _ :=
      whole ▸ Node.reads_childFrom?_iff element.toNode flat' recorded
    simp only [Option.toList_some, List.append_nil, reads_nil_iff, exists_eq_left, String.append_empty] at read
    rw [read, Element.toNode, Node.textContent, same.textOfAll]

/-- A render reaches its final state by calls and inspections. -/
theorem reaches_of_render {renderer : Renderer} {builder : Builder σ ν} {tree : Option Node} {start finish : σ}
    {result : ν} (rendered : renderer.render (some builder) tree start = .ok result finish) :
    builder.Reaches start finish := by
  cases found : rootElement tree with
  | error error => rw [render_of_error found] at rendered; cases rendered
  | ok element =>
    rw [render_of_ok found] at rendered
    obtain ⟨desk, passed, _, rfl⟩ := run_of_renderElement rendered
    exact Builder.Reaches.run (Builder.Reaches.start.detect) passed

/-- Rendering for numbered nodes does the same, with numbers on the nodes. -/
theorem render_numbered {renderer : Renderer} {builder : Builder σ ν} {tree : Option Node} {start : σ} {result : ν}
    {finish : Traced σ ν}
    (rendered : renderer.render (some builder.traced) tree { state := start } = .ok result finish) : ∃ number log,
      renderer.render (some builder.numbered.traced) tree { state := { state := start } } = .ok (number, result) log ∧
      log.state = finish := by
  have covered := congrFun (renderer.render_covers builder.numbered_covers tree) { state := start }
  have recorded := renderer.render_dropCalls builder.numbered tree { state := { state := start } }
  simp only [rendered, recorded, Functor.map, EStateM.map] at covered
  cases outcome : renderer.render (some builder.numbered.traced) tree { state := { state := start } } with
  | ok node log =>
    rw [outcome] at covered
    cases covered
    exact ⟨node.1, log, rfl, rfl⟩
  | error error log =>
    rw [outcome] at covered
    cases covered

/-- Rendering preserves text. From the result of a successful render of a tree without inner roots one text can be
read, depth-first through the calls, and it is the text of the tree. If nodes repeat they are told apart by the
numbers of the calls that gave them. Comments, doctypes and raw data have no part in it. -/
theorem render_preserves_text (renderer : Renderer) (builder : Builder σ ν) {tree : Node} {start : σ} {result : ν}
    {finish : Traced σ ν} (flat : Node.areRootless tree.children = true)
    (rendered : renderer.render (some builder.traced) (some tree) { state := start } = .ok result finish) :
    (∃ number log,
      renderer.render (some builder.numbered.traced) (some tree) { state := { state := start } } =
        .ok (number, result) log ∧
      log.state = finish ∧ log.IsNumbered ∧
      ∀ text, Reads log.calls [.node (number, result)] text ↔ text = tree.textContent) ∧
    ((finish.calls.filterMap Entry.node).Nodup →
      ∀ text, Reads finish.calls [.node result] text ↔ text = tree.textContent) ∧
    tree.strip.textContent = tree.textContent := by
  refine ⟨?_, reads_result_iff flat rendered, Node.textContent_strip tree⟩
  obtain ⟨number, log, outcome, same⟩ := render_numbered rendered
  have numbered := builder.numbered_isNumbered (reaches_of_render outcome)
  exact ⟨number, log, outcome, same, numbered, reads_result_iff flat outcome numbered.nodup⟩

/-- A root with texts on three levels, and with a comment, a doctype and raw data between them. -/
def mixedTree : Node :=
  .root [.text "a", .element "p" ∅ [.comment "x", .text "b", .element "i" ∅ [.text "c"], .text "d"], .doctype,
    .raw "y", .text "e"]

theorem render_preserves_text_mixedTree : ∃ finish,
    Node.areRootless mixedTree.children = true ∧
    Renderer.render {} (some Script.numbering.traced) (some mixedTree) { state := {} } = .ok 3 finish ∧
    Reads finish.calls [.node 3] "abcde" := by
  have flat : Node.areRootless mixedTree.children = true := rfl
  have rendered : ∃ finish, Renderer.render {} (some Script.numbering.traced) (some mixedTree) { state := {} } =
      .ok 3 finish ∧ (finish.calls.filterMap Entry.node).Nodup := ⟨_, rfl, by decide⟩
  obtain ⟨finish, rendered, distinct⟩ := rendered
  exact ⟨finish, flat, rendered, ((render_preserves_text {} Script.numbering flat rendered).2.1 distinct _).mpr rfl⟩

end Renderer

end Hyperscript
