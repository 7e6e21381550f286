import TripleQuery.Proofs.Fetching.Promises
import TripleQuery.Proofs.Sessions.Deeds
/-!
# Called — everybody who registers is called once

At every moment of a session over a library the calls that were made, with those
that are about to be, are the calls that its history promises
(`Moment.Records.accounts`). A delivery calls those who have waited for its
document before anything that is left of it goes on, whatever is delivered inside
these calls (`Moment.Records.calls`): each call is a task on a stack, and what it
brings about is carried out before the next one (`Moment.Records.passes`).
-/

namespace TripleQuery

namespace Session

variable {s : Session} {task : Task}

/-- A delivery is no call. -/
theorem call?_delivery? (s : Session) : s.delivery?.bind Deed.call? = none := by
  unfold delivery?
  cases s.stock?.bind (·.deliver s.graph) <;> rfl

/-- **The call that is made is the one that the task makes.** -/
theorem call?_deed? (s : Session) (task : Task) : (s.deed? task).bind Deed.call? = task.calls? := by
  cases task with
  | order o =>
    cases o with
    | request d | watch d n =>
      rw [deed?]
      cases s.stock? <;> rfl
    | _ => rfl
  | command c =>
    have hnone : (s.commandDeed? c).bind Deed.call? = none := by
      cases c with
      | library c =>
        cases c with
        | deliver => exact s.call?_delivery?
        | _ => rfl
      | _ => rfl
    rw [deed?]
    cases s.library? with
    | none => rfl
    | some p => exact hnone
  | pump n announce => exact s.call?_delivery?
  | _ => rfl

end Session

namespace Moment

variable {m m' : Moment} {T T₁ : List (Deed Callback)} {g : Graph} {config : SearchConfig}
  {eager : Bool} {l : Library Callback} {top base : List Task}
  {due : List (Callback × FetchOutcome)}

/-! ## The calls of a run -/

/-- What is due after the next deed is on the stack. -/
theorem Kept.callsOn_exec {s : Session} {task : Task} {stack : List Task} {told : List Notice}
    (h : Kept T ⟨s, task :: stack, told⟩) : callsOn (s.exec task).2 =
      (s.deed? task).elim [] (({} : Tables Callback).after T).due := by
  rcases Session.handles_exec h.stocked task with ⟨hnone, hs⟩ | ⟨he, hserves⟩ | ⟨rfl, hs⟩
  · rw [hnone]
    exact hs.calls
  · obtain ⟨-, l, l', later, hl, -, -, -, htasks, hcalls, -⟩ := hserves
    rw [he, htasks, callsOn_append, callsOn_calling, hcalls, List.append_nil, h.tables hl]
    rfl
  · exact hs.calls

/-- The calls that were made, with those on the stack, are those that the history
promises. -/
def Accounts (T : List (Deed Callback)) (m : Moment) : Prop :=
  (calledIn T ++ callsOn m.stack).Perm (({} : Tables Callback).promised T)

/-- **Each task leaves the accounts balanced**: it makes the call that was on the
stack, and puts there what is due. -/
theorem Accounts.next (h : m.Accounts T) (hkept : m.Kept T) (hnext : Next m m') :
    m'.Accounts (T ++ m.deed?.toList) := by
  cases hnext with
  | @command s told c =>
    rw [show (deed? ⟨s, [], told⟩).toList = [] from rfl, List.append_nil]
    exact h
  | @task s task stack told =>
    have hdeed : deed? ⟨s, task :: stack, told⟩ = s.deed? task := rfl
    have hmade : calledIn (s.deed? task).toList = task.calls?.toList := by
      rw [← s.call?_deed? task]
      cases s.deed? task with
      | none => rfl
      | some e =>
        rw [calledIn, Option.toList_some, List.filterMap_cons]
        cases he : e.call? <;> simp [he]
    have hfollows := (hkept.next .task).follows
    rw [hdeed] at hfollows ⊢
    have hnew := hkept.callsOn_exec
    -- what was called or is to be called before is what was promised so far
    have hold : (calledIn T ++ task.calls?.toList ++ callsOn stack).Perm
        (({} : Tables Callback).promised T) := by
      have hstack : callsOn (task :: stack) = task.calls?.toList ++ callsOn stack :=
        callsOn_cons task stack
      rw [List.append_assoc, ← hstack]
      exact h
    have hpromised : (({} : Tables Callback).promised (T ++ (s.deed? task).toList)).Perm
        (({} : Tables Callback).promised T ++ callsOn (s.exec task).2) := by
      rw [hnew]
      cases he : s.deed? task with
      | none => simp
      | some e =>
        rw [he] at hfollows
        exact Tables.promised_concat (fun _ => rfl) (Tables.follows_append.1 hfollows).2.1
    refine List.Perm.trans ?_ hpromised.symm
    rw [calledIn_append, hmade, callsOn_append]
    refine List.Perm.trans ?_ (hold.append_right _)
    rw [List.append_assoc _ (callsOn stack)]
    exact List.perm_append_comm.append_left _

/-- A history leaves them balanced. -/
theorem Accounts.records (h : m.Accounts T₁) (hkept : m.Kept T₁) (hT : Records m T m') :
    m'.Accounts (T₁ ++ T) := by
  induction hT generalizing T₁ with
  | refl => rwa [List.append_nil]
  | head hnext _ ih =>
    rw [← List.append_assoc]
    exact ih (h.next hkept hnext) (hkept.next hnext)

/-- **At every moment the accounts are balanced.** -/
theorem Records.accounts (h : Records (start g (some (.library eager {})) config) T m) :
    m.Accounts T :=
  have hstart : (start g (some (.library eager {})) config).Accounts [] := List.Perm.refl _
  hstart.records (kept_start g eager config) h

/-! ## Inside a delivery -/

/-- **Whatever stands on top of a stack is over before the rest goes on.** -/
theorem Records.passes (h : Records m T m') (hm : m.stack = top ++ base)
    (hlen : m'.stack.length ≤ base.length) : ∃ T₁ T₂ mid, T = T₁ ++ T₂ ∧ Records m T₁ mid ∧
      mid.stack = base ∧ Records mid T₂ m' := by
  induction h generalizing top with
  | refl m =>
    obtain rfl : top = [] := by
      rw [hm, List.length_append] at hlen
      exact List.eq_nil_of_length_eq_zero (by omega)
    exact ⟨[], [], m, rfl, .refl m, hm, .refl m⟩
  | @head m m' m'' T hnext hrest ih =>
    cases top with
    | nil => exact ⟨[], _, m, rfl, .refl m, hm, .head hnext hrest⟩
    | cons task top =>
      obtain ⟨s, stack, told⟩ := m
      obtain rfl : stack = task :: (top ++ base) := hm
      cases hnext with
      | task =>
        obtain ⟨T₁, T₂, mid, rfl, h₁, hmid, h₂⟩ := ih (List.append_assoc ..).symm hlen
        exact ⟨_, T₂, mid, (List.append_assoc ..).symm, .head .task h₁, hmid, h₂⟩

/-- **All calls on top of a stack are made, in order, before the rest goes on.** -/
theorem Records.calls (h : Records m T m') (hm : m.stack = Task.calling due ++ base)
    (hlen : m'.stack.length ≤ base.length) :
    (due.map fun p => Deed.called p.1 p.2).Sublist T := by
  induction due generalizing m T with
  | nil => exact List.nil_sublist T
  | cons p due ih =>
    obtain ⟨s, stack, told⟩ := m
    obtain rfl : stack = .call p.1 p.2 :: (Task.calling due ++ base) := hm
    cases h with
    | refl =>
      simp only [List.length_cons, List.length_append] at hlen
      omega
    | head hnext hrest =>
      cases hnext with
      | task =>
        -- what the first call brings about is over when the others are made
        obtain ⟨T₁, T₂, mid, rfl, -, hmid, h₂⟩ := hrest.passes rfl (by
          rw [List.length_append]
          omega)
        exact ((ih h₂ hmid).trans (List.sublist_append_right T₁ T₂)).cons_cons _

/-! ## Registering and delivering -/

/-- Those whom the library keeps wait according to its history. -/
theorem Kept.waits (h : m.Kept T) (hl : m.session.stock? = some l) (d : String) :
    l.watchers[d]?.getD [] = ({} : Tables Callback).waits d T := by
  have hwaiters := Tables.waiters_after {} d T
  rw [← h.tables hl] at hwaiters
  refine hwaiters.trans ?_
  cases firstDelivery d T <;> rfl

/-- What a deed makes of the tables, and the calls that it leaves on the stack. -/
theorem Kept.exec_served {s : Session} {task : Task} {stack : List Task} {told : List Notice}
    {e : Deed Callback} (h : Kept T ⟨s, task :: stack, told⟩) (hl : s.stock? = some l)
    (he : s.deed? task = some e) (hcall : e.call? = none) : ∃ l' later,
      (s.exec task).1.stock? = some l' ∧ l.tables.Allows e ∧ l'.tables = l.tables.apply e ∧
        (s.exec task).2 = Task.calling (l.tables.due e) ++ later ∧
        (e.document?.isSome → ∃ task ∈ later.head?, task.isDelivery) := by
  rcases Session.handles_exec h.stocked task with ⟨hnone, -⟩ | ⟨he', hserves⟩ | ⟨rfl, -⟩
  · rw [hnone] at he
    cases he
  · obtain rfl := Option.some.inj (he'.symm.trans he)
    obtain ⟨-, l₁, l', later, hl₁, hl', ha, ht, htasks, -, hd⟩ := hserves
    obtain rfl := Option.some.inj (hl₁.symm.trans hl)
    exact ⟨l', later, hl', ha, ht, htasks, hd⟩
  · obtain rfl := Option.some.inj he
    cases hcall

/-- **Whoever registers for a document** is called next if it has an outcome, and is
kept otherwise. -/
theorem Kept.next_registered {r : String} {c : Callback} (h : m.Kept T)
    (hl : m.session.stock? = some l) (hnext : Next m m')
    (he : m.deed? = some (.registered r c)) :
    (∀ o, l.outcome? r = some o → ∃ rest, m'.stack = .call c o :: rest) ∧
    (l.outcome? r = none → ∃ l', m'.session.stock? = some l' ∧
      l'.watchers[documentPart r]?.getD [] = l.watchers[documentPart r]?.getD [] ++ [c]) := by
  cases hnext with
  | command => cases he
  | @task s task stack told =>
    obtain ⟨l', later, hl', -, ht, htasks, -⟩ := h.exec_served hl he rfl
    rw [Library.outcome?_eq_tables]
    refine ⟨fun o ho => ⟨later ++ stack, ?_⟩, fun hnone => ⟨l', hl', ?_⟩⟩
    · simp only [htasks, Tables.due, ho]
      rfl
    · have hw := congrFun (congrArg Tables.waiters ht) (documentPart r)
      simp only [Tables.apply, hnone, Function.update_self] at hw
      exact hw

/-- **A delivery is for those who wait for its document**, and they are called before
the rest of it goes on. -/
theorem Kept.next_delivered {o : FetchOutcome} {cs : List Callback} (h : m.Kept T)
    (hl : m.session.stock? = some l) (hnext : Next m m')
    (he : m.deed? = some (.delivered o cs)) :
    cs = ({} : Tables Callback).waits o.resource T ∧
    ∃ later rest, later.isDelivery ∧
      m'.stack = Task.calling (cs.map (·, o)) ++ later :: rest ∧
      ∀ T' m'', Records m' T' m'' → m''.stack.length ≤ rest.length + 1 →
        (cs.map (.called · o)).Sublist T' := by
  cases hnext with
  | command => cases he
  | @task s task stack told =>
    obtain ⟨l', later, -, ha, -, htasks, hd⟩ := h.exec_served hl he rfl
    refine ⟨ha.2.trans (h.waits hl o.resource), ?_⟩
    obtain ⟨first, hfirst, hdelivery⟩ := hd rfl
    cases later with
    | nil => cases hfirst
    | cons first' later =>
      obtain rfl : first' = first := Option.some.inj hfirst
      have hstack : (s.exec task).2 ++ stack =
          Task.calling (cs.map (·, o)) ++ first' :: (later ++ stack) := by
        rw [htasks]
        exact List.append_assoc ..
      refine ⟨first', later ++ stack, hdelivery, hstack, fun T' m'' hrecords hlen => ?_⟩
      have hcalls := hrecords.calls hstack hlen
      rwa [List.map_map] at hcalls

/-- **Whoever registers for a document is called once, with the right outcome.**
Let a session over a library have come to any moment, with any history of its
library.

The calls that were made, with those that are about to be made, are as many as
were promised: one for every registration whose document had an outcome recorded
or was delivered since, with that outcome, or that of the first delivery since.
It is the outcome of the document that was registered for. Those whom the library
keeps are the others, who still wait.

Whoever registers for a document with a recorded outcome is called with it next,
and whoever registers for another one is kept. A delivery is for those who wait
for its document, in the order in which they have registered: once the rest of
the delivery goes on, each of them was called with its outcome. -/
theorem Records.called_once (h : Records (start g (some (.library eager {})) config) T m) :
    (calledIn T ++ callsOn m.stack).Perm (({} : Tables Callback).promised T) ∧
    (∀ c o, (c, o) ∈ ({} : Tables Callback).promised T →
      ∃ r, .registered r c ∈ T ∧ o.resource = documentPart r) ∧
    ∀ l, m.session.stock? = some l →
      (∀ d, l.watchers[d]?.getD [] = ({} : Tables Callback).waits d T) ∧
      ∀ m', Next m m' →
        (∀ r c, m.deed? = some (.registered r c) →
          (∀ o, l.outcome? r = some o → ∃ rest, m'.stack = .call c o :: rest) ∧
          (l.outcome? r = none → ∃ l', m'.session.stock? = some l' ∧
            l'.watchers[documentPart r]?.getD [] =
              l.watchers[documentPart r]?.getD [] ++ [c])) ∧
        ∀ o cs, m.deed? = some (.delivered o cs) →
          cs = ({} : Tables Callback).waits o.resource T ∧
          ∃ later rest, later.isDelivery ∧
            m'.stack = Task.calling (cs.map (·, o)) ++ later :: rest ∧
            ∀ T' m'', Records m' T' m'' → m''.stack.length ≤ rest.length + 1 →
              (cs.map (.called · o)).Sublist T' := by
  have hkept := h.kept
  refine ⟨h.accounts, fun c o => Tables.registered_of_mem_promised Tables.consistent_empty
    hkept.follows, fun l hl => ⟨hkept.waits hl, fun m' hnext => ⟨fun r c => ?_, fun o cs => ?_⟩⟩⟩
  · exact hkept.next_registered hl hnext
  · exact hkept.next_delivered hl hnext

/-! ## A delivery inside a delivery of the same document -/

/-- Two wait for a document that is requested. The first will ask for it again,
wait for that, and deliver it before the second is called. -/
def registering : Moment :=
  carryOutAll 20
    [.library (.publish "a" [⟨.symbol "a", .symbol "p", .symbol "b", none⟩]),
      .onAvailable "a#it" "first"
        [.library (.refresh "a"), .onAvailable "a" "again" [], .library .deliver],
      .onAvailable "a" "second" [], .request "a"]
    (start .empty (some (.library false {})) {})

/-- The document is about to be delivered. -/
def delivering : Moment :=
  carryOutAll 0 [.library .deliver] registering

theorem next_carryOut (h : m.stack ≠ []) : Next m (carryOut 1 m) := by
  obtain ⟨s, stack, told⟩ := m
  cases stack with
  | nil => exact absurd rfl h
  | cons task stack => exact .task

/-- The first task is carried out, the delivery, and then both calls with all that
they bring about. -/
def announcing : Moment :=
  carryOut 1 delivering

def announced : Moment :=
  carryOut 15 announcing

theorem stock?_delivering : delivering.session.stock?.map
    (fun l => ((l.watchers["a"]?.getD []).length, l.outcome? "a")) = some (2, none) := by
  cbv

theorem deed?_delivering : delivering.deed?.bind Deed.document? = some "a" := by
  cbv

theorem length_stacks : delivering.stack.length = 1 ∧ announcing.stack.length = 4 ∧
    announced.stack.length = 2 := by
  cbv

/-- In between, the document was delivered once more, and somebody called then. -/
example : (calledIn (deedsOf 15 announcing)).map (·.2) =
    [⟨"a", none, 1⟩, ⟨"a", none, 0⟩, ⟨"a", none, 1⟩] := by
  cbv

/-- The delivery is for both who wait, and both are called with its outcome,
though the document was refreshed and delivered again after the first call. No
call is made that was not promised. -/
theorem delivering_called_once : ∃ T o cs,
    Records (start .empty (some (.library false {})) {}) T delivering ∧
    (calledIn T ++ callsOn delivering.stack).Perm (({} : Tables Callback).promised T) ∧
    delivering.deed? = some (.delivered o cs) ∧ o.resource = "a" ∧ cs.length = 2 ∧
    cs = ({} : Tables Callback).waits "a" T ∧
    (∀ l, delivering.session.stock? = some l → l.watchers["a"]?.getD [] = cs) ∧
    Next delivering announcing ∧
    Records announcing (deedsOf 15 announcing) announced ∧
    (cs.map (.called · o)).Sublist (deedsOf 15 announcing) := by
  obtain ⟨T, hrecords⟩ :
      ∃ T, Records (start .empty (some (.library false {})) {}) T delivering :=
    ⟨_, (records_carryOutAll 20 _ _).trans (records_carryOutAll 0 _ _)⟩
  have hlater : Records announcing (deedsOf 15 announcing) announced := records_carryOut 15 _
  obtain ⟨hdelivering, hannouncing, hannounced⟩ := length_stacks
  have hnext : Next delivering announcing :=
    next_carryOut fun h => by simp [h] at hdelivering
  obtain ⟨l, hl, hfacts⟩ := Option.map_eq_some_iff.1 stock?_delivering
  obtain ⟨e, he, hdocument⟩ := Option.bind_eq_some_iff.1 deed?_delivering
  obtain ⟨hperm, -, hlibrary⟩ := hrecords.called_once
  obtain ⟨hwaiters, hall⟩ := hlibrary l hl
  cases e with
  | delivered o cs =>
    have ho : o.resource = "a" := Option.some.inj hdocument
    obtain ⟨hcs, later, rest, -, hstack, hcalled⟩ := (hall announcing hnext).2 o cs he
    rw [ho] at hcs
    have hlength : cs.length = 2 := by
      rw [hcs, ← hwaiters]
      exact congrArg (·.1) hfacts
    refine ⟨T, o, cs, hrecords, hperm, he, ho, hlength, hcs, fun l' hl' => ?_, hnext, hlater,
      hcalled _ _ hlater ?_⟩
    · obtain rfl := Option.some.inj (hl.symm.trans hl')
      rw [hwaiters, hcs]
    · have hlen := congrArg List.length hstack
      simp only [hannouncing, Task.calling, List.length_append, List.length_map, List.length_cons,
        hlength] at hlen
      omega
  | _ => cases hdocument

end Moment

end TripleQuery
