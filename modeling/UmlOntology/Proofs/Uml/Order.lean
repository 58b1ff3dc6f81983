/-
The order of the elements of a document. Constructs whose requests agree leave nodes at the same
addresses, with the same kinds and the same edges, in whatever order they are built: the kind is the
one that they agree on, and the edges are those that the requests are for, since a label that finds
its slot taken finds its own text there. A complete element closes the associations that it opens,
so trees that change places are read the same and ask for the same.
-/
import UmlOntology.Proofs.Uml.Construct
import UmlOntology.Proofs.Uml.Kinds
import UmlOntology.Proofs.Uml.Scopes

namespace UmlOntology

variable {o : Options} {cs ds : List Construct} {r : Request} {g h : Graph} {a : Iri} {e : Edge}

/-! ## Requests that agree -/

/-- Two additions do not give different labels in one language. -/
def Addition.Agrees : Addition → Addition → Prop
  | .label text lang, .label text' lang' => lang = lang' → text = text'
  | _, _ => True

instance : ∀ x y : Addition, Decidable (x.Agrees y)
  | .label text lang, .label text' lang' => inferInstanceAs (Decidable (lang = lang' → text = text'))
  | .label .., .edge .. => isTrue trivial
  | .edge .., .label .. => isTrue trivial
  | .edge .., .edge .. => isTrue trivial

/-- Two requests for one address do not settle it as different kinds, and do not give it different
labels in one language. -/
def Request.Agrees (o : Options) (r q : Request) : Prop :=
  o.address r.id = o.address q.id →
    (r.kind ≠ .unknown → q.kind ≠ .unknown → r.kind = q.kind) ∧
    ∀ x ∈ r.additions, ∀ y ∈ q.additions, x.Agrees y

instance (o : Options) (r q : Request) : Decidable (r.Agrees o q) :=
  inferInstanceAs (Decidable (_ → _ ∧ _))

/-- One of the constructs makes the request. -/
def Requested (cs : List Construct) (r : Request) : Prop := ∃ c ∈ cs, c.request? = some r

/-- The requests of the constructs agree with one another. -/
def Coherent (o : Options) (cs : List Construct) : Prop :=
  ∀ r q, Requested cs r → Requested cs q → r.Agrees o q

namespace Construct

/-- No construct adds a label as an edge, past the slot of its language. -/
theorem edge_label_not_mem {c : Construct} (hr : c.request? = some r) (x : Object) :
    .edge .label x ∉ r.additions := by
  intro hx
  rcases (labels_of_request hr).edges .label x hx with h | h <;> cases h

end Construct

/-- An edge that a request is for and that is a label comes from the label of the request. -/
theorem label_of_toEdge {c : Construct} (hr : c.request? = some r) {x : Addition}
    (hx : x ∈ o.additions r) (hp : x.toEdge.predicate = .label) :
    ∃ text lang, x = .label text lang ∧ x ∈ r.additions := by
  rcases Options.mem_additions_iff.1 hx with ⟨-, rfl⟩ | hx
  · cases hp
  · cases x with
    | label text lang => exact ⟨text, lang, rfl, hx⟩
    | edge p y =>
      obtain rfl : p = .label := hp
      exact (Construct.edge_label_not_mem hr y hx).elim

/-! ## What constructs leave in an empty graph -/

/-- A request for a node at the address is for the edge. -/
def Requested.Edge (o : Options) (cs : List Construct) (a : Iri) (e : Edge) : Prop :=
  ∃ r, Requested cs r ∧ o.address r.id = a ∧ ∃ x ∈ o.additions r, e = x.toEdge

theorem requested_cons {c : Construct} :
    Requested (c :: cs) r ↔ c.request? = some r ∨ Requested cs r := by
  unfold Requested
  simp

namespace Graph

/-- The edges of the node at an address, none if there is no node. -/
def edgesAt (g : Graph) (a : Iri) : List Edge := (g.nodeAt a).edges

theorem edgesAt_of_get? {n : Node} (hn : g.get? a = some n) : g.edgesAt a = n.edges := by
  unfold edgesAt
  rw [nodeAt_of_get? hn]

theorem mem_edgesAt_realize (he : e ∈ (g.realize o r).edgesAt a) :
    e ∈ g.edgesAt a ∨ o.address r.id = a ∧ ∃ x ∈ o.additions r, e = x.toEdge := by
  unfold edgesAt at he
  rw [nodeAt_realize] at he
  by_cases ha : a = o.address r.id
  · rw [if_pos ha] at he
    rcases Node.mem_edges_addAll he with he | he
    · left
      rw [ha]
      exact he
    · exact Or.inr ⟨ha.symm, he⟩
  · rw [if_neg ha] at he
    exact Or.inl he

/-- Every edge that constructs bring is one that they ask for. -/
theorem mem_edgesAt_buildAll (he : e ∈ (g.buildAll o cs).edgesAt a) :
    e ∈ g.edgesAt a ∨ Requested.Edge o cs a e := by
  induction cs generalizing g with
  | nil => exact Or.inl he
  | cons c cs ih =>
    rw [buildAll_cons] at he
    rcases ih he with he | ⟨r, hr, ha, hx⟩
    · cases hc : c.request? with
      | none =>
        rw [Operation.apply_build_of_none hc] at he
        exact Or.inl he
      | some r =>
        rw [Operation.apply_build_of_some hc] at he
        rcases mem_edgesAt_realize he with he | ⟨ha, hx⟩
        · exact Or.inl he
        · exact Or.inr ⟨r, requested_cons.2 (Or.inl hc), ha, hx⟩
    · exact Or.inr ⟨r, requested_cons.2 (Or.inr hr), ha, hx⟩

/-- Constructs whose requests agree leave every edge that they ask for: a label may find its slot
taken, but then by the same text. -/
theorem mem_edgesAt_iff (hcs : Coherent o cs) :
    e ∈ (buildAll o {} cs).edgesAt a ↔ Requested.Edge o cs a e := by
  constructor
  · intro he
    exact (mem_edgesAt_buildAll he).resolve_left nofun
  · rintro ⟨r, ⟨c, hc, hr⟩, rfl, x, hx, rfl⟩
    obtain ⟨n, hn, -, hknows⟩ := meets_buildAll (o := o) {} hc hr
    rw [edgesAt_of_get? hn]
    cases x with
    | edge p y => exact hknows _ hx
    | label text lang =>
      rcases hknows _ hx with hslot | hmem
      · -- the label in the slot comes from some request, which agrees with this one
        obtain ⟨text', ht⟩ := Option.isSome_iff_exists.1 hslot
        have hlabel := Node.label_mem ht
        rw [← edgesAt_of_get? hn] at hlabel
        obtain ⟨q, ⟨d, hd, hq⟩, hqa, y, hy, hye⟩ :=
          (mem_edgesAt_buildAll hlabel).resolve_left nofun
        obtain ⟨_, _, -, hxr⟩ := label_of_toEdge hr hx rfl
        obtain ⟨_, _, rfl, hyq⟩ := label_of_toEdge hq hy (by rw [← hye])
        cases hye
        have hagree := (hcs r q ⟨c, hc, hr⟩ ⟨d, hd, hq⟩ hqa.symm).2 _ hxr _ hyq
        rw [show text = text' from hagree rfl]
        exact Node.label_mem ht
      · exact hmem

theorem mem_buildAll_iff : a ∈ buildAll o {} cs ↔ ∃ r, Requested cs r ∧ o.address r.id = a := by
  unfold buildAll
  rw [mem_extend_iff, or_iff_right (mem_iff_addresses.not.2 List.not_mem_nil)]
  constructor
  · rintro ⟨op, hop, k, hd⟩
    obtain ⟨c, hc, rfl⟩ := List.mem_map.1 hop
    obtain ⟨r, hr, hk⟩ := Option.map_eq_some_iff.1 hd
    exact ⟨r, ⟨c, hc, hr⟩, congrArg Prod.fst hk⟩
  · rintro ⟨r, ⟨c, hc, hr⟩, rfl⟩
    refine ⟨.build o c, List.mem_map_of_mem hc, r.kind, ?_⟩
    rw [Operation.demanded?, hr]
    rfl

theorem mem_demandedAt_iff {k : Kind} : k ∈ demandedAt a (cs.map (.build o)) ↔
    ∃ r, Requested cs r ∧ o.address r.id = a ∧ r.kind = k := by
  unfold demandedAt
  rw [List.mem_filterMap]
  constructor
  · rintro ⟨op, hop, hd⟩
    obtain ⟨c, hc, rfl⟩ := List.mem_map.1 hop
    rw [Operation.demandedAt?_eq_some_iff] at hd
    obtain ⟨r, hr, hk⟩ := Option.map_eq_some_iff.1 hd
    exact ⟨r, ⟨c, hc, hr⟩, congrArg Prod.fst hk, congrArg Prod.snd hk⟩
  · rintro ⟨r, ⟨c, hc, hr⟩, rfl, rfl⟩
    refine ⟨.build o c, List.mem_map_of_mem hc, ?_⟩
    rw [Operation.demandedAt?_eq_some_iff, Operation.demanded?, hr]
    rfl

/-! ## The order of constructs -/

/-- The graphs have nodes at the same addresses, with the same kinds and the same edges. Only the
order of the nodes and of the edges of a node may differ. -/
structure SameNodes (g h : Graph) : Prop where
  addresses : g.addresses.Perm h.addresses
  nodes : ∀ a n, g.get? a = some n →
    ∃ m, h.get? a = some m ∧ m.kind = n.kind ∧ m.edges.Perm n.edges

theorem sameNodes_of_iff (hg : g.WF) (hh : h.WF) (hmem : ∀ a, a ∈ g ↔ a ∈ h)
    (hkind : ∀ a, g.kindAt a = h.kindAt a)
    (hedges : ∀ a e, e ∈ g.edgesAt a ↔ e ∈ h.edgesAt a) : g.SameNodes h := by
  refine ⟨(List.perm_ext_iff_of_nodup hg.addresses hh.addresses).2 fun a => ?_, fun a n hn => ?_⟩
  · rw [← mem_iff_addresses, ← mem_iff_addresses]
    exact hmem a
  · obtain ⟨m, hm⟩ :=
      Option.isSome_iff_exists.1 (mem_iff_get?.1 ((hmem a).1 (mem_of_get? hn)))
    refine ⟨m, hm, ?_, (List.perm_ext_iff_of_nodup (hh.edges a m hm) (hg.edges a n hn)).2 ?_⟩
    · rw [← kindAt_of_get? hn, ← kindAt_of_get? hm, hkind]
    · intro e
      rw [← edgesAt_of_get? hn, ← edgesAt_of_get? hm]
      exact (hedges a e).symm

/-- Constructs whose requests agree leave the same nodes in every order. -/
theorem sameNodes_buildAll (hcs : Coherent o cs) (hmem : ∀ c, c ∈ cs ↔ c ∈ ds) :
    (buildAll o {} cs).SameNodes (buildAll o {} ds) := by
  have hreq : ∀ r, Requested cs r ↔ Requested ds r := fun r =>
    exists_congr fun c => and_congr_left fun _ => hmem c
  have hds : Coherent o ds := fun r q hr hq => hcs r q ((hreq r).2 hr) ((hreq q).2 hq)
  refine sameNodes_of_iff (wf_extend wf_empty _) (wf_extend wf_empty _) (fun a => ?_)
    (fun a => ?_) fun a e => ?_
  · simp only [mem_buildAll_iff, hreq]
  · -- the kinds that are demanded are the same in both orders, and they agree
    unfold buildAll
    rw [kindAt_extend, kindAt_extend, Kind.first_congr]
    · rintro k hk l hl
      obtain ⟨r, hr, ha, rfl⟩ := mem_demandedAt_iff.1 hk
      obtain ⟨q, hq, hb, rfl⟩ := mem_demandedAt_iff.1 hl
      exact (hcs r q hr hq (ha.trans hb.symm)).1
    · intro k
      simp only [mem_demandedAt_iff, hreq]
  · rw [mem_edgesAt_iff hcs, mem_edgesAt_iff hds]
    unfold Requested.Edge
    simp only [hreq]

end Graph

/-! ## The order of trees -/

namespace Reading

theorem ofEvents_tree (t : Tree) (es : List Event) :
    ofEvents [] (t.events ++ es) = ofEvents [] t.events ++ ofEvents [] es := by
  rw [ofEvents_append, Scope.passAll_tree]
  rfl

theorem ofEvents_forest (f : Forest) :
    ofEvents [] f.events = f.flatMap fun t => ofEvents [] t.events := by
  induction f with
  | nil => rfl
  | cons t f ih => rw [Forest.events, ofEvents_tree, ih, List.flatMap_cons]

theorem mem_ofEvents_iff {scopes : List Scope} {es : List Event} {r : Reading} :
    r ∈ ofEvents scopes es ↔ ∃ pre el post, es = pre ++ .start el :: post ∧
      ofElement (Scope.passAll scopes pre) el = r := by
  constructor
  · induction es generalizing scopes with
    | nil => nofun
    | cons e es ih =>
      intro hr
      cases e with
      | start el =>
        rw [ofEvents_start] at hr
        rcases List.mem_cons.1 hr with rfl | hr
        · exact ⟨[], el, es, rfl, rfl⟩
        · obtain ⟨pre, el', post, rfl, h⟩ := ih hr
          refine ⟨.start el :: pre, el', post, rfl, ?_⟩
          rw [Scope.passAll_cons, Scope.pass_start, h]
      | finish tag =>
        rw [ofEvents_finish] at hr
        obtain ⟨pre, el', post, rfl, h⟩ := ih hr
        refine ⟨.finish tag :: pre, el', post, rfl, ?_⟩
        rw [Scope.passAll_cons, Scope.pass_finish, h]
  · rintro ⟨pre, el, post, rfl, rfl⟩
    rw [ofEvents_append, ofEvents_start]
    simp

end Reading

namespace Translation

/-- The start of an element makes the request, somewhere in a run over the events. -/
def Asks (o : Options) (es : List Event) (r : Request) : Prop :=
  ∃ pre el post, es = pre ++ .start el :: post ∧ ((run o pre).reading el).request? = some r

theorem asks_iff {es : List Event} :
    Asks o es r ↔ Requested (Reading.constructs (Reading.ofEvents [] es)) r := by
  have hread : Asks o es r ↔ ∃ x ∈ Reading.ofEvents [] es, x.request? = some r := by
    unfold Asks reading
    simp only [scopes_run, Reading.mem_ofEvents_iff]
    constructor
    · rintro ⟨pre, el, post, hes, hr⟩
      exact ⟨_, ⟨pre, el, post, hes, rfl⟩, hr⟩
    · rintro ⟨x, ⟨pre, el, post, hes, rfl⟩, hr⟩
      exact ⟨pre, el, post, hes, hr⟩
  rw [hread]
  unfold Requested Reading.constructs
  simp only [Reading.request?_eq_bind, List.mem_filterMap, Option.bind_eq_some_iff]
  constructor
  · rintro ⟨x, hx, c, hc, hr⟩
    exact ⟨c, ⟨x, hx, hc⟩, hr⟩
  · rintro ⟨c, ⟨x, hx, hc⟩, hr⟩
    exact ⟨x, hx, c, hc, hr⟩

end Translation

/-- Trees that change places are translated to the same nodes with the same totals, if the requests
of the elements agree with one another. -/
theorem translation_of_perm (o : Options) {f g : Forest} (hperm : f.Perm g)
    (hagree : ∀ r q, Translation.Asks o f.events r → Translation.Asks o f.events q →
      r.Agrees o q) :
    (Translation.run o f.events).graph.SameNodes (Translation.run o g.events).graph ∧
      (Translation.run o f.events).totals = (Translation.run o g.events).totals := by
  have hread : (Reading.ofEvents [] f.events).Perm (Reading.ofEvents [] g.events) := by
    rw [Reading.ofEvents_forest, Reading.ofEvents_forest]
    exact hperm.flatMap_right _
  constructor
  · rw [Translation.graph_run, Translation.graph_run]
    refine Graph.sameNodes_buildAll (fun r q hr hq => ?_) fun c => (hread.filterMap _).mem_iff
    exact hagree r q (Translation.asks_iff.2 hr) (Translation.asks_iff.2 hq)
  · rw [Translation.totals_run, Translation.totals_run, Totals.foldl_count, Totals.foldl_count,
      hread.length_eq, hread.countP_eq, hread.countP_eq]

/-- A reference to a class, an association with two ends, and the class. -/
def forwardReference : Forest :=
  [.node { tag := "UML:Class", attributes := [("xmi.idref", "c")] } [],
    .node namedAssociation [.node bareEnd [], .node bareEnd []],
    .node { tag := "UML:Class", attributes := [("xmi.id", "c"), ("name", "C")] } []]

/-- A class may come before what refers to it. -/
theorem translation_of_forwardReference :
    (forwardReference.Perm forwardReference.reverse ∧
      ∀ r q, Translation.Asks {} forwardReference.events r →
        Translation.Asks {} forwardReference.events q → r.Agrees {} q) ∧
    (Translation.run {} forwardReference.events).graph.SameNodes
        (Translation.run {} (Forest.events forwardReference.reverse)).graph ∧
      (Translation.run {} forwardReference.events).totals =
        (Translation.run {} (Forest.events forwardReference.reverse)).totals := by
  have hperm : forwardReference.Perm forwardReference.reverse := (List.reverse_perm _).symm
  have hall : ∀ c ∈ Reading.constructs (Reading.ofEvents [] forwardReference.events),
      ∀ d ∈ Reading.constructs (Reading.ofEvents [] forwardReference.events),
      ∀ r ∈ c.request?, ∀ q ∈ d.request?, r.Agrees {} q := by decide
  have hagree : ∀ r q, Translation.Asks {} forwardReference.events r →
      Translation.Asks {} forwardReference.events q → r.Agrees {} q := by
    intro r q hr hq
    obtain ⟨c, hc, hr⟩ := Translation.asks_iff.1 hr
    obtain ⟨d, hd, hq⟩ := Translation.asks_iff.1 hq
    exact hall c hc d hd r hr q hq
  exact ⟨⟨hperm, hagree⟩, translation_of_perm {} hperm hagree⟩

end UmlOntology
