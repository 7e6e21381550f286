import TripleQuery.Proofs.Searching.Waning
import TripleQuery.Proofs.Sessions.Soundness
/-!
# Unheeded — a source of documents that never comes to know a request

Whatever a source of documents answers, and whenever it calls back, no path waits
for a document twice (`Scene.Arises.waits_once`). It may leave every document
unrequested for ever and call back at once, or add to the store before it calls;
a search still takes finitely many steps, and whoever starts one or resumes a
path of it gets back.
-/

namespace TripleQuery

open Relation (ReflTransGen)

namespace Scene

variable {g : Graph} {w : Scene}

/-- **No path waits for a document twice.** Let a scene arise in any way: the
store grows or is merged in at any time, the source of documents gives any answer
each time that it is asked, and paths are called back or given up at any time.

Every path of it has come along a route from the start of its search. The
documents it waited for are those that it remembers, they are pairwise distinct,
and each is the document of a symbol that is bound on it; and what is watched for
on behalf of a parked path is the last of them.

So each search takes finitely many steps from here on, whatever happens between
them. And if a search is started or a path resumed, all that this brings about is
carried out at last, whatever the source does in between, as long as no more
searches are started. -/
theorem Arises.waits_once (h : Arises g w) :
    (∀ f, w.Walks f → ∃ p ds, .started f.search p ∈ w.told ∧
      (Frame.root f.search p).Route ds f ∧ f.awaited = ds.reverse ∧ ds.Nodup ∧
      ∀ d ∈ ds, ∃ (t : Term) (iri : String), f.bindings[t]? = some (.symbol iri) ∧
        documentPart iri = d) ∧
    (∀ d n f, .watch d n ∈ w.orders → w.table.parked[n]? = some f →
      f.awaited.head? = some d) ∧
    (∀ i, i ∈ w.table.searches →
      Acc (fun v' v => ∃ u, ReflTransGen Happens v u ∧ Acts i u v') w) ∧
    (∀ config linked p, p.validate = .ok () →
      Returns w.orders ⟨w.graph, (w.table.launch config linked p).1,
        .job (w.table.launch config linked p).2.2 :: w.orders,
        w.told ++ [.started w.table.next p]⟩) ∧
    ∀ n, Returns w.orders ⟨w.graph, (w.table.resume n).1, (w.table.resume n).2 ++ w.orders,
      w.told⟩ := by
  have hw := h.inOrder
  refine ⟨fun f hf => ?_, fun d n f ho hf => (h.routed.watches ho).2 f hf, fun i hi => ?_,
    fun config linked p hp => ?_, fun n => ?_⟩
  · obtain ⟨ds, p, hp, hroute⟩ := h.routed.reaches hf
    refine ⟨p, ds, hp, hroute, ?_, hroute.nodup, fun d hd => hroute.bound hd⟩
    rw [hroute.awaited_eq]
    exact List.append_nil _
  · exact hw.acc_acts (Nat.lt_of_succ_lt (hw.sound.layout.search_lt hi))
  · have hstarted := hw.step (.launch config linked hp)
    exact hstarted.returns (List.singleton_append ..).symm
  · exact (hw.step (.resume n)).returns rfl

end Scene

namespace Moment

variable {m : Moment} {g : Graph} {source : Option Source} {config : SearchConfig}

/-- The searches of a session at work arise. -/
theorem Leads.arises (h : Leads (start g source config) m) : Scene.Arises g m.scene :=
  (h.steps (isSound_start g source config)).1.arises

/-! ## A path that waits while it is called back -/

/-- A store that says one thing of one symbol, and one of another. -/
def chain : Graph :=
  .ofList [⟨.symbol "a", .symbol "p", .symbol "b", none⟩,
    ⟨.symbol "b", .symbol "q", .symbol "c#it", none⟩]

/-- What the symbol leads to in three steps. -/
def threeLinks : Pattern where
  triples :=
    [⟨.symbol "a", .symbol "p", .var "y", none⟩, ⟨.var "y", .symbol "q", .var "z", none⟩,
      ⟨.var "z", .symbol "r", .var "u", none⟩]

/-- The source calls back at once, and comes to know of no request. Its first call
has led the path to the next document, for which it is parked. -/
def chainSearch : Moment :=
  carryOutAll 14 [.search "chain" threeLinks [] []]
    (start chain (some (.scripted { mode := .fire })) {})

theorem awaited_chainSearch :
    (chainSearch.scene.table.parked[3]?.map (·.awaited)) = some ["c", "b"] := by
  cbv

theorem orders_chainSearch : chainSearch.scene.orders.head? = some (.watch "c" 3) := by
  cbv

/-- The path has waited for two documents, each of which a symbol names that is
bound on it. The search takes finitely many steps from here on, and when the path
is resumed once more, the source gets back. -/
theorem chainSearch_waits : Scene.Arises chain chainSearch.scene ∧
    ∃ f, chainSearch.scene.table.parked[3]? = some f ∧ .watch "c" 3 ∈ chainSearch.scene.orders ∧
      f.awaited.head? = some "c" ∧
      (∃ p ds, .started f.search p ∈ chainSearch.scene.told ∧
        (Frame.root f.search p).Route ds f ∧ ds = ["b", "c"] ∧ ds.Nodup ∧
        ∀ d ∈ ds, ∃ (t : Term) (iri : String), f.bindings[t]? = some (.symbol iri) ∧
          documentPart iri = d) ∧
      Acc (fun v' v => ∃ u, ReflTransGen Scene.Happens v u ∧ Scene.Acts 0 u v')
        chainSearch.scene ∧
      Scene.Returns chainSearch.scene.orders ⟨chainSearch.scene.graph,
        (chainSearch.scene.table.resume 3).1,
        (chainSearch.scene.table.resume 3).2 ++ chainSearch.scene.orders,
        chainSearch.scene.told⟩ := by
  have harises : Scene.Arises chain chainSearch.scene := (leads_carryOutAll 14 _ _).arises
  obtain ⟨f, hf, hawaited⟩ := Option.map_eq_some_iff.1 awaited_chainSearch
  have hwatch : .watch "c" 3 ∈ chainSearch.scene.orders :=
    List.mem_of_mem_head? (by rw [orders_chainSearch]; rfl)
  have hsearch : 0 ∈ chainSearch.scene.table.searches := by cbv
  obtain ⟨hroutes, hwatches, hfinite, -, hreturns⟩ := harises.waits_once
  obtain ⟨p, ds, hp, hroute, hds, hnodup, hbound⟩ := hroutes f (.parked hf)
  have hdocuments : ds = ["b", "c"] := by
    rw [← List.reverse_reverse ds, ← hds, hawaited]
    rfl
  exact ⟨harises, f, hf, hwatch, hwatches "c" 3 f hwatch hf,
    ⟨p, ds, hp, hroute, hdocuments, hnodup, hbound⟩, hfinite 0 hsearch, hreturns 3⟩

end Moment

end TripleQuery
