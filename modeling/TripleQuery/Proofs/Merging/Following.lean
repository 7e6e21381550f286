import TripleQuery.Proofs.Merging.Store
import TripleQuery.Session.Basic
/-!
# Following — every chain of redirections ends

Redirections also work as a table: a term is looked up (`Redirections.target?`),
what is found is looked up again, and so on until nothing is found
(`Redirections.Follows`). Where each redirection was made between terms that
stood for themselves, this ends for every term at what the term stands for,
after as many steps as `Redirections.hops` counts (`follows_iff`): no term is
redirected twice, and no chain comes back to where it started.

A store that adding and merging lead to never overwrites an entry of the table,
and its generation counts its statements and its redirections
(`Reachable.follows_canonical`). This holds whatever is merged, a term with a
collection that contains it included (`follows_enclosed`).
-/

namespace TripleQuery

namespace Redirections

variable {rs : Redirections} {source target t t' e : Term} {n : Nat}

/-- What the table has for a term. -/
def target? (rs : Redirections) (t : Term) : Option Term :=
  rs.lookup t

/-- Looking up a term and what is found, again and again, ends after so many
steps with a term that the table does not have. -/
inductive Follows (rs : Redirections) : Term → Nat → Term → Prop
  /-- The table has nothing for the term. -/
  | stop {t : Term} : rs.target? t = none → Follows rs t 0 t
  /-- The term is redirected, and the search goes on. -/
  | hop {t t' e : Term} {n : Nat} :
      rs.target? t = some t' → Follows rs t' n e → Follows rs t (n + 1) e

/-- How many redirections act on a term. -/
def hops : Redirections → Term → Nat
  | [], _ => 0
  | (source, _) :: earlier, t =>
    hops earlier t + if canonical earlier t = source then 1 else 0

theorem hops_le_length (rs : Redirections) (t : Term) : rs.hops t ≤ rs.length := by
  induction rs with
  | nil => exact Nat.le_refl 0
  | cons r rs ih =>
    obtain ⟨source, target⟩ := r
    rw [hops, List.length_cons]
    split <;> omega

@[simp] theorem target?_nil (t : Term) : target? [] t = none := rfl

theorem target?_cons (source target : Term) (rs : Redirections) (t : Term) :
    target? ((source, target) :: rs) t = if t = source then some target else rs.target? t := by
  rw [target?, List.lookup_cons]
  by_cases h : t = source
  · rw [if_pos h, beq_iff_eq.2 h]
  · rw [if_neg h, beq_eq_false_iff_ne.2 h]
    rfl

/-- A term that the table does not have stands for itself, and nothing acts on
it. -/
theorem of_target?_eq_none (h : rs.target? t = none) : rs.canonical t = t ∧ rs.hops t = 0 := by
  induction rs with
  | nil => exact ⟨rfl, rfl⟩
  | cons r rs ih =>
    obtain ⟨source, target⟩ := r
    rw [target?_cons] at h
    split at h
    · cases h
    rename_i hts
    obtain ⟨hc, hh⟩ := ih h
    rw [canonical_cons, hops, hc, hh, if_neg hts, if_neg hts]
    exact ⟨rfl, rfl⟩

/-- **A term stands for itself exactly when the table does not have it.** -/
theorem canonical_eq_self_iff (hr : rs.Recorded) :
    rs.canonical t = t ↔ rs.target? t = none := by
  refine ⟨fun h => ?_, fun h => (of_target?_eq_none h).1⟩
  induction rs generalizing t with
  | nil => rfl
  | cons r rs ih =>
    obtain ⟨source, target⟩ := r
    obtain ⟨hsource, htarget, hne, hrs⟩ := hr
    rw [canonical_cons] at h
    split at h
    · -- the term is the target, which the earlier table did not have
      subst h
      rw [target?_cons, if_neg hne.symm]
      exact ih hrs htarget
    · rename_i hc
      rw [h] at hc
      rw [target?_cons, if_neg hc]
      exact ih hrs h

/-- **A step of the search leaves what a term stands for and uses up one
redirection.** -/
theorem of_target?_eq_some (hr : rs.Recorded) (h : rs.target? t = some t') :
    rs.canonical t = rs.canonical t' ∧ rs.hops t = rs.hops t' + 1 := by
  induction rs with
  | nil => cases h
  | cons r rs ih =>
    obtain ⟨source, target⟩ := r
    obtain ⟨hsource, htarget, hne, hrs⟩ := hr
    have hhops : ∀ {t}, canonical rs t = t → hops rs t = 0 := fun hc =>
      (of_target?_eq_none ((canonical_eq_self_iff hrs).1 hc)).2
    rw [target?_cons] at h
    split at h
    · -- the last redirection starts and ends where all earlier ones stop
      rename_i hts
      obtain rfl := Option.some.inj h
      subst hts
      rw [canonical_cons, canonical_cons, hops, hops, hsource, htarget, hhops hsource,
        hhops htarget, if_pos rfl, if_neg hne.symm, if_pos rfl, if_neg hne.symm]
      exact ⟨rfl, rfl⟩
    · obtain ⟨hc, hh⟩ := ih hrs h
      rw [canonical_cons, canonical_cons, hops, hops, hc, hh]
      exact ⟨rfl, Nat.add_right_comm ..⟩

/-- **Following redirections ends, and ends where the term stands.** -/
theorem follows_hops (hr : rs.Recorded) (t : Term) :
    rs.Follows t (rs.hops t) (rs.canonical t) := by
  generalize hn : rs.hops t = n
  induction n generalizing t with
  | zero =>
    cases h : rs.target? t with
    | none =>
      rw [(of_target?_eq_none h).1]
      exact .stop h
    | some t' =>
      have hh := (of_target?_eq_some hr h).2
      omega
  | succ n ih =>
    cases h : rs.target? t with
    | none =>
      have hh := (of_target?_eq_none h).2
      omega
    | some t' =>
      obtain ⟨hc, hh⟩ := of_target?_eq_some hr h
      rw [hc]
      exact .hop h (ih t' (by omega))

/-- There is one way to follow redirections. -/
theorem follows_iff (hr : rs.Recorded) :
    rs.Follows t n e ↔ n = rs.hops t ∧ e = rs.canonical t := by
  constructor
  · intro h
    induction h with
    | stop h =>
      obtain ⟨hc, hh⟩ := of_target?_eq_none h
      exact ⟨hh.symm, hc.symm⟩
    | hop h _ ih =>
      obtain ⟨hc, hh⟩ := of_target?_eq_some hr h
      exact ⟨by rw [hh, ih.1], by rw [hc, ih.2]⟩
  · rintro ⟨rfl, rfl⟩
    exact follows_hops hr t

/-- **No chain of redirections comes back.** -/
theorem wellFounded_target? (hr : rs.Recorded) :
    WellFounded fun t' t => rs.target? t = some t' :=
  Subrelation.wf (fun {t' t} h => by
    have hh := (of_target?_eq_some hr h).2
    change rs.hops t' < rs.hops t
    omega) (measure rs.hops).wf

/-- **No term is redirected twice.** -/
theorem nodup_sources (hr : rs.Recorded) : (rs.map Prod.fst).Nodup := by
  induction rs with
  | nil => exact List.nodup_nil
  | cons r rs ih =>
    obtain ⟨source, target⟩ := r
    obtain ⟨hsource, -, -, hrs⟩ := hr
    rw [List.map_cons, List.nodup_cons]
    refine ⟨fun hmem => ?_, ih hrs⟩
    have hnone : target? rs source = none := (canonical_eq_self_iff hrs).1 hsource
    obtain ⟨⟨s, t⟩, hr, rfl⟩ := List.mem_map.1 hmem
    rw [target?, List.lookup_eq_none_iff] at hnone
    exact absurd (hnone _ hr) (by simp)

end Redirections

namespace Graph

variable {g g' : Graph} {a b keep : Term}

/-- Merging fails exactly when one of the keys is a variable. -/
theorem equate_eq_error_iff :
    (∃ e, g.equate a b = .error e) ↔ (g.key a).isNamedVariable ∨ (g.key b).isNamedVariable := by
  simp only [equate]
  constructor
  · rintro ⟨e, h⟩
    split at h
    · exact .inl ‹_›
    split at h
    · exact .inr ‹_›
    split at h
    · cases h
    split at h <;> cases h
  · intro h
    split
    · exact ⟨_, rfl⟩
    · rename_i ha
      rw [if_pos (h.resolve_left ha)]
      exact ⟨_, rfl⟩

/-- Two terms that were merged have no variable for a key. -/
theorem isNamedVariable_key_of_equate (h : g.equate a b = .ok (g', keep)) :
    (g.key a).isNamedVariable = false ∧ (g.key b).isNamedVariable = false := by
  have hok : ¬ ∃ e, g.equate a b = .error e := by
    rintro ⟨e, he⟩
    rw [he] at h
    cases h
  rw [equate_eq_error_iff] at hok
  simpa using hok

/-- **No redirection starts or ends at a variable.** -/
theorem Reachable.isNamedVariable_eq_false (hg : g.Reachable) :
    ∀ r ∈ g.redirections, r.1.isNamedVariable = false ∧ r.2.isNamedVariable = false := by
  induction hg with
  | empty => intro r hr; cases hr
  | add s _ ih => rwa [redirections_add]
  | equate _ he ih =>
    obtain ⟨ha, hb⟩ := isNamedVariable_key_of_equate he
    rcases equate_cases he with ⟨-, rfl, -⟩ | ⟨-, lose, rfl, -, hkeys⟩
    · exact ih
    · intro r hr
      rcases List.mem_cons.1 hr with rfl | hr
      · rcases hkeys with ⟨rfl, rfl⟩ | ⟨rfl, rfl⟩
        · exact ⟨ha, hb⟩
        · exact ⟨hb, ha⟩
      · exact ih r hr

/-- **The generation counts statements and redirections.** -/
theorem Reachable.generation_eq (hg : g.Reachable) :
    g.generation = g.size + g.redirections.length := by
  induction hg with
  | empty => rfl
  | @add g s _ ih =>
    by_cases hs : s ∈ g.statements
    · rw [add_of_mem hs, ih]
    · have hgen : (g.add s).generation = g.generation + 1 := by
        simp [Graph.add, contains, hs]
      have hsize : (g.add s).size = g.size + 1 := by
        rw [Graph.size, statements_add, if_neg hs, Array.size_push]
        rfl
      rw [hgen, hsize, redirections_add, ih]
      omega
  | @equate g g' a b keep _ he ih =>
    rcases equate_cases he with ⟨-, rfl, -⟩ | ⟨-, lose, rfl, -⟩
    · exact ih
    · change g.generation + 1 = g.size + (g.redirections.length + 1)
      omega

/-- **A merge of two keys adds one entry to the table and changes none.** -/
theorem Orderly.target?_equate (hg : g.Orderly) (h : g.equate a b = .ok (g', keep))
    (hne : g.key a ≠ g.key b) :
    ∃ lose, g'.redirections = (lose, keep) :: g.redirections ∧
      (lose = g.key a ∧ keep = g.key b ∨ lose = g.key b ∧ keep = g.key a) ∧
      g.redirections.target? lose = none ∧
      ∀ t, g'.redirections.target? t = if t = lose then some keep else g.redirections.target? t := by
  have hnone : ∀ t, g.redirections.target? (g.key t) = none := fun t =>
    (Redirections.canonical_eq_self_iff hg.recorded).1 (Redirections.canonical_key hg.recorded t)
  rcases equate_cases h with ⟨heq, -⟩ | ⟨-, lose, rfl, -, hkeys⟩
  · exact absurd heq hne
  · refine ⟨lose, rfl, hkeys, ?_, fun t => Redirections.target?_cons ..⟩
    rcases hkeys with ⟨rfl, -⟩ | ⟨rfl, -⟩ <;> exact hnone _

/-- **The table of redirections is acyclic and never overwritten.** In a store
that adding and merging lead to, following redirections ends from every term,
after as many steps as redirections act on it, at what the term stands for; the
table does not have that, and it stands for itself. No chain comes back, no term
is redirected twice, and no redirection starts or ends at a variable. The
generation counts statements and redirections. A known statement and a merge
that fails or finds equal keys change nothing; any other merge adds one entry
for a term that had none. -/
theorem Reachable.follows_canonical (hg : g.Reachable) :
    (∀ t, (∀ n e, g.redirections.Follows t n e ↔
        n = g.redirections.hops t ∧ e = g.canonical t) ∧
      g.redirections.hops t ≤ g.redirections.length ∧
      g.redirections.target? (g.canonical t) = none ∧
      g.canonical (g.canonical t) = g.canonical t) ∧
    WellFounded (fun t' t => g.redirections.target? t = some t') ∧
    (g.redirections.map Prod.fst).Nodup ∧
    (∀ r ∈ g.redirections, r.1.isNamedVariable = false ∧ r.2.isNamedVariable = false) ∧
    g.generation = g.size + g.redirections.length ∧
    (∀ s ∈ g.statements, g.add s = g) ∧
    ∀ a b,
      ((∃ e, g.equate a b = .error e) ∨ g.key a = g.key b →
        ∀ s : Session, s.graph = g → (s.edit (.equate a b)).graph = g) ∧
      ∀ g' keep, g.equate a b = .ok (g', keep) →
        (g.key a = g.key b → g' = g) ∧
        (g.key a ≠ g.key b →
          g'.redirections.length = g.redirections.length + 1 ∧
          ∃ lose, g.redirections.target? lose = none ∧
            ∀ t, g'.redirections.target? t =
              if t = lose then some keep else g.redirections.target? t) := by
  have ho := hg.orderly
  have hr := ho.recorded
  refine ⟨fun t => ?_, Redirections.wellFounded_target? hr, Redirections.nodup_sources hr,
    hg.isNamedVariable_eq_false, hg.generation_eq, fun s hs => add_of_mem hs, fun a b => ?_⟩
  · have hself : g.canonical (g.canonical t) = g.canonical t :=
      Redirections.canonical_canonical hr t
    exact ⟨fun n e => Redirections.follows_iff hr, Redirections.hops_le_length _ t,
      (Redirections.canonical_eq_self_iff hr).1 hself, hself⟩
  · have hsame : ∀ {g' keep}, g.equate a b = .ok (g', keep) → g.key a = g.key b → g' = g := by
      intro g' keep he hk
      rcases equate_cases he with ⟨-, hg', -⟩ | ⟨hne, -⟩
      · exact hg'
      · exact absurd hk hne
    refine ⟨fun h s hs => ?_, fun g' keep he => ⟨hsame he, fun hne => ?_⟩⟩
    · subst hs
      cases he : s.graph.equate a b with
      | error e => simp [Session.edit, he, Session.answer]
      | ok r =>
        obtain ⟨g', keep⟩ := r
        have hk : s.graph.key a = s.graph.key b := by
          refine h.resolve_left ?_
          rintro ⟨e, hfail⟩
          rw [he] at hfail
          cases hfail
        simp [Session.edit, he, hsame he hk]
    · obtain ⟨lose, hrs, -, hnone, hentry⟩ := ho.target?_equate he hne
      exact ⟨by rw [hrs, List.length_cons], lose, hnone, hentry⟩

/-! ## A term merged with a collection that contains it -/

/-- A blank node is merged with the collection of itself, twice: the second
time the collection is rebuilt from its element, and is another one. -/
def enclosed : Graph :=
  (empty.redirect (.blank "b") (.collection [.blank "b"])).redirect
    (.collection [.collection [.blank "b"]]) (.collection [.blank "b"])

/-- Then it is merged with a symbol. -/
def enclosedMerged : Graph :=
  enclosed.redirect (.collection [.blank "b"]) (.symbol "a")

theorem reachable_enclosedMerged : enclosedMerged.Reachable := by
  have honce : (empty.redirect (.blank "b") (.collection [.blank "b"])).Reachable := .equate .empty
    (equate_keeps_right (a := .blank "b") (b := .collection [.blank "b"])
      (by cbv) (by cbv) ⟨rfl, rfl⟩ (by decide) (by cbv))
  have htwice : enclosed.Reachable := .equate honce
    (equate_keeps_left (a := .blank "b") (b := .collection [.blank "b"])
      (by cbv) (by cbv) ⟨rfl, rfl⟩ (by decide) (by cbv))
  exact .equate htwice
    (equate_keeps_right (a := .blank "b") (b := .symbol "a")
      (by cbv) (by cbv) ⟨rfl, rfl⟩ (by decide) (by cbv))

/-- The end of the chain at work: the blank node is redirected to its
collection, and that to the symbol. -/
theorem follows_enclosed :
    enclosedMerged.redirections.Follows (.blank "b") 2 (.symbol "a") ∧
      enclosedMerged.redirections.target? (.symbol "a") = none := by
  have hall := reachable_enclosedMerged.follows_canonical.1 (.blank "b")
  have hhops : 2 = enclosedMerged.redirections.hops (.blank "b") := by cbv
  have hend : Term.symbol "a" = enclosedMerged.canonical (.blank "b") := by cbv
  refine ⟨(hall.1 2 _).2 ⟨hhops, hend⟩, ?_⟩
  rw [hend]
  exact hall.2.2.1

end Graph

end TripleQuery
