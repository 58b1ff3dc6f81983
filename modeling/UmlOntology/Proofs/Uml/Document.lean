/-
What is built from a document that breaks off. A run over the first events of a document is the
beginning of the run over all of them, and a graph only grows along a run. So the graph of the front
of a document is a past state of the graph of the whole: nothing in it is taken back.
-/
import UmlOntology.Proofs.Uml.Run
import UmlOntology.Proofs.Xml.Prefix

namespace UmlOntology

namespace Translation

variable (o : Options)

theorem grows_extend (t : Translation) (es : List Event) : t.graph.Grows (extend o t es).graph := by
  rw [graph_extend]
  exact Graph.grows_extend _ _

/-- A run that goes on only lets the graph grow. -/
theorem grows_run_of_prefix {es fs : List Event} (h : es <+: fs) :
    (run o es).graph.Grows (run o fs).graph := by
  obtain ⟨gs, rfl⟩ := h
  rw [run_append]
  exact grows_extend o _ gs

end Translation

/-- Wherever a document breaks off, what is read of it, with any decoders, are the first events of
the document, and what is built of it is in the graph of the document: its addresses come first and
in the same order, and at each of them the edges come first and in the same order, under the same
kind unless it was open. -/
theorem truncated_document (o : Options) (decoders : Decoders) {p d : Bytes} (h : p <+: d) :
    (eventsOf p decoders).1 <+: (eventsOf d decoders).1 ∧
    (Translation.run o (eventsOf p decoders).1).graph.addresses <+:
      (Translation.run o (eventsOf d decoders).1).graph.addresses ∧
    ∀ a n, (Translation.run o (eventsOf p decoders).1).graph.get? a = some n →
      ∃ m, (Translation.run o (eventsOf d decoders).1).graph.get? a = some m ∧
        n.edges <+: m.edges ∧ (m.kind = n.kind ∨ n.kind = .unknown) := by
  have hevents := eventsOf_prefix decoders h
  have hgrows := Translation.grows_run_of_prefix o hevents
  refine ⟨hevents, hgrows.addresses, fun a n hn => ?_⟩
  obtain ⟨m, hm, hnm⟩ := hgrows.nodes a n hn
  exact ⟨m, hm, hnm.edges, hnm.kind⟩

/-- A document that refers to a class before it declares it. -/
def wholeDocument : Bytes :=
  Bytes.ofString "<XMI><UML:Package xmi.idref='c'/><UML:Class xmi.id='c' name='C > B'/></XMI>"

/-- The document as far as into the name of the class. -/
def brokenDocument : Bytes := wholeDocument.take 65

theorem truncated_brokenDocument :
    brokenDocument <+: wholeDocument ∧
    (eventsOf brokenDocument).1 <+: (eventsOf wholeDocument).1 ∧
    (Translation.run {} (eventsOf brokenDocument).1).graph.addresses <+:
      (Translation.run {} (eventsOf wholeDocument).1).graph.addresses ∧
    ∀ a n, (Translation.run {} (eventsOf brokenDocument).1).graph.get? a = some n →
      ∃ m, (Translation.run {} (eventsOf wholeDocument).1).graph.get? a = some m ∧
        n.edges <+: m.edges ∧ (m.kind = n.kind ∨ n.kind = .unknown) :=
  ⟨List.take_prefix 65 wholeDocument, truncated_document {} .ascii (List.take_prefix 65 wholeDocument)⟩

end UmlOntology
