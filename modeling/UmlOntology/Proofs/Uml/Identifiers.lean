/-
Identifiers of declared nodes. An address keeps its identifier behind the namespace, so all
declarations that reach a node declare one identifier, and the node keeps it once; references leave
no identifier behind.
-/
import UmlOntology.Proofs.Uml.Order

namespace UmlOntology

/-! ## Addresses -/

theorem rest?_append (lead s : List Char) : rest? lead (lead ++ s) = some s := by
  induction lead with
  | nil => rfl
  | cons c lead ih =>
    show rest? (c :: lead) (c :: (lead ++ s)) = some s
    rw [rest?, if_pos rfl, ih]

/-- The identifier of an address is the one that it was made from. -/
theorem Namespace.id?_address (ns : Namespace) (id : String) : ns.id? (ns.address id) = some id := by
  unfold id? Iri.behind? address
  rw [String.toList_append, rest?_append, Option.map_some, String.ofList_toList]

theorem Options.id?_address (o : Options) (id : String) : o.ns.id? (o.address id) = some id :=
  o.ns.id?_address id

theorem Options.address_injective (o : Options) : Function.Injective o.address := by
  intro id id' h
  have hid := o.id?_address id
  rw [h, o.id?_address] at hid
  exact (Option.some.inj hid).symm

/-! ## Edges to identifiers -/

variable {o : Options} {c : Construct} {r : Request} {cs : List Construct} {a : Iri} {e : Edge}

/-- An addition of a construct leads to an identifier only as the one that is declared and kept. -/
theorem sourceId_of_addition (hr : c.request? = some r) {x : Addition} (hx : x ∈ o.additions r)
    (hp : x.toEdge.predicate = .sourceId) :
    o.keepIds = true ∧ c.declaredId? = some r.id ∧ x = .edge .sourceId (.literal r.id) := by
  rcases Options.mem_additions_iff.1 hx with ⟨⟨hd, hk⟩, rfl⟩ | hx
  · refine ⟨hk, ?_, rfl⟩
    rw [Construct.declaredId?_of_request hr, if_pos hd]
  · cases x with
    | label text lang => cases hp
    | edge p y =>
      rcases (Construct.labels_of_request hr).edges p y hx with rfl | rfl <;> cases hp

/-- What a construct declares is the identifier that it reaches its node by. -/
theorem Construct.address_of_declaredId? {id : String} (hid : c.declaredId? = some id)
    (ha : c.address? o = some a) : o.address id = a := by
  obtain ⟨r, hr, rfl⟩ := Option.map_eq_some_iff.1 ha
  rw [declaredId?_of_request hr] at hid
  split at hid
  · rw [Option.some.inj hid]
  · cases hid

theorem Node.nodup_objects {n : Node} (h : n.edges.Nodup) (p : Predicate) :
    (n.objects p).Nodup := by
  refine (h.filter _).map_on fun e he f hf heq => ?_
  have hep : e.predicate = p := by simpa using (List.mem_filter.1 he).2
  have hfp : f.predicate = p := by simpa using (List.mem_filter.1 hf).2
  obtain ⟨q, x⟩ := e
  obtain ⟨q', y⟩ := f
  rw [show q = q' from hep.trans hfp.symm, show x = y from heq]

/-- The identifiers of a node are those that calls declared and that the options keep. -/
theorem mem_sourceIds_iff {n : Node} (hn : (Graph.buildAll o {} cs).get? a = some n) {x : Object} :
    x ∈ n.objects .sourceId ↔ o.keepIds = true ∧
      ∃ c ∈ cs, ∃ id, c.declaredId? = some id ∧ c.address? o = some a ∧ x = .literal id := by
  unfold Node.objects
  simp only [List.mem_map, List.mem_filter, decide_eq_true_eq]
  constructor
  · rintro ⟨e, ⟨he, hp⟩, rfl⟩
    rw [← Graph.edgesAt_of_get? hn] at he
    obtain ⟨r, ⟨c, hc, hr⟩, ha, y, hy, rfl⟩ := (Graph.mem_edgesAt_buildAll he).resolve_left nofun
    obtain ⟨hk, hid, rfl⟩ := sourceId_of_addition hr hy hp
    exact ⟨hk, c, hc, r.id, hid, by rw [Construct.address?, hr, Option.map_some, ha], rfl⟩
  · rintro ⟨hk, c, hc, id, hid, ha, rfl⟩
    obtain ⟨r, hr, rfl⟩ := Option.map_eq_some_iff.1 ha
    rw [Construct.declaredId?_of_request hr] at hid
    split at hid
    · rename_i hd
      rw [← Option.some.inj hid]
      -- the request is met in the end, and it asks for this edge
      obtain ⟨m, hm, -, hknows⟩ := Graph.meets_buildAll (o := o) {} hc hr
      rw [hn] at hm
      cases hm
      refine ⟨⟨.sourceId, .literal r.id⟩, ⟨hknows (.edge .sourceId (.literal r.id)) ?_, rfl⟩, rfl⟩
      unfold Options.additions
      rw [hd, hk]
      exact List.mem_cons_self
    · cases hid

/-- After calls that start from an empty graph, a node has no identifier if the options keep none.
If they keep them, a node that a call declared has one, once: the one that every such call declared,
which is the one that its address was made from. A node that was only referred to has none. -/
theorem sourceIds_of_calls (o : Options) (cs : List Construct) {n : Node}
    (hn : n ∈ (Graph.extend {} (cs.map (.build o))).nodes) :
    (o.keepIds = false → n.objects .sourceId = []) ∧
    (o.keepIds = true →
      (∀ c ∈ cs, c.address? o = some n.address → ∀ id, c.declaredId? = some id →
        o.ns.id? n.address = some id ∧ n.objects .sourceId = [.literal id]) ∧
      ((∀ c ∈ cs, c.address? o = some n.address → c.declaredId? = none) →
        n.objects .sourceId = [])) := by
  have hwf : (Graph.buildAll o {} cs).WF := Graph.wf_extend Graph.wf_empty _
  have hget : (Graph.buildAll o {} cs).get? n.address = some n := Graph.get?_of_mem hwf.addresses hn
  have hmem : ∀ x, _ := fun x => mem_sourceIds_iff hget (x := x)
  refine ⟨fun hk => ?_, fun hk => ⟨fun c hc ha id hid => ?_, fun hrefs => ?_⟩⟩
  · refine List.eq_nil_iff_forall_not_mem.2 fun x hx => ?_
    have hk' := ((hmem x).1 hx).1
    rw [hk] at hk'
    cases hk'
  · have haddr : o.address id = n.address := Construct.address_of_declaredId? hid ha
    refine ⟨by rw [← haddr, o.id?_address], List.perm_singleton.1 ?_⟩
    refine (List.perm_ext_iff_of_nodup (Node.nodup_objects (hwf.edges _ n hget) _)
      (List.nodup_singleton _)).2 fun x => ?_
    rw [hmem, List.mem_singleton]
    constructor
    · -- two identifiers at one address are one
      rintro ⟨-, d, -, id', hid', ha', rfl⟩
      rw [o.address_injective ((Construct.address_of_declaredId? hid' ha').trans haddr.symm)]
    · rintro rfl
      exact ⟨hk, c, hc, id, hid, ha, rfl⟩
  · refine List.eq_nil_iff_forall_not_mem.2 fun x hx => ?_
    obtain ⟨-, c, hc, id, hid, ha, -⟩ := (hmem x).1 hx
    rw [hrefs c hc ha] at hid
    cases hid

/-- An end that gets its identifier from an association, and an end that declares the same one. Both
are referred to before, and so is a node that nothing declares. -/
def twoEnds : List Construct :=
  [.reference "a-A", .associationEnd {} "a" .a,
    .objectProperty { attributes := [("xmi.id", "a-A")] }, .reference "b"]

/-- The two ends are one node with one identifier, and the node that is only referred to has
none. -/
theorem sourceIds_of_twoEnds :
    (∃ n ∈ (Graph.extend {} (twoEnds.map (.build {}))).nodes, n.address = Options.address {} "a-A" ∧
      Namespace.id? {} n.address = some "a-A" ∧ n.objects .sourceId = [.literal "a-A"]) ∧
    ∃ n ∈ (Graph.extend {} (twoEnds.map (.build {}))).nodes, n.address = Options.address {} "b" ∧
      n.objects .sourceId = [] := by
  have hnodes : (Graph.extend {} (twoEnds.map (.build {}))).nodes =
      [⟨Options.address {} "a-A", .objectProperty, [⟨.sourceId, .literal "a-A"⟩]⟩,
        ⟨Options.address {} "b", .unknown, []⟩] := by decide
  have hends := sourceIds_of_calls {} twoEnds (hnodes ▸ List.mem_cons_self)
  have hother := sourceIds_of_calls {} twoEnds
    (hnodes ▸ List.mem_cons_of_mem _ List.mem_cons_self)
  constructor
  · refine ⟨_, hnodes ▸ List.mem_cons_self, rfl, ?_⟩
    exact (hends.2 rfl).1 (.associationEnd {} "a" .a) (by decide) (by decide) "a-A" (by decide)
  · refine ⟨_, hnodes ▸ List.mem_cons_of_mem _ List.mem_cons_self, rfl, ?_⟩
    exact (hother.2 rfl).2 (by decide)

end UmlOntology
