import TripleQuery.Proofs.Sessions.Moment
/-!
# Promptness — what a session does at once

To ask for a document, to tell a caller of a match and to tell him that his
search is done are urgent: a session does these things as soon as its searches
order them, before any other task (`Moment.IsPrompt`). So at a moment at which a
command is carried out nothing of the kind is left over from before, a document
is asked for on behalf of a search that goes on, and the end that is told is the
end as it is at that moment.
-/

namespace TripleQuery

variable {t t' : Searches} {os : List Order} {job : Job} {env : Surroundings}
  {tasks stack : List Task}

/-- An order that is carried out as soon as it is given. -/
def Order.IsUrgent : Order → Prop
  | .request _ | .deliver _ _ | .finish _ _ => True
  | _ => False

/-- No order among some tasks is urgent. -/
def Unhurried (tasks : List Task) : Prop :=
  ∀ o ∈ ordersOf tasks, ¬ o.IsUrgent

theorem Unhurried.append (h : Unhurried tasks) (h' : Unhurried stack) :
    Unhurried (tasks ++ stack) := by
  intro o ho
  rw [ordersOf_append] at ho
  exact (List.mem_append.1 ho).elim (h o) (h' o)

theorem Unhurried.tail {task : Task} (h : Unhurried (task :: stack)) : Unhurried stack := by
  intro o ho
  have hsplit : ordersOf (task :: stack) = ordersOf [task] ++ ordersOf stack :=
    ordersOf_append [task] stack
  exact h o (by rw [hsplit]; exact List.mem_append_right _ ho)

theorem unhurried_of_ordersOf (h : ordersOf tasks = []) : Unhurried tasks := by
  simp [Unhurried, h]

/-- An order that is not urgent may go first. -/
theorem Unhurried.cons {o : Order} (ho : ¬ o.IsUrgent) (h : Unhurried stack) :
    Unhurried (.order o :: stack) := by
  intro o' ho'
  rcases List.mem_cons.1 ho' with rfl | ho'
  · exact ho
  · exact h o' ho'

theorem unhurried_orders (h : ∀ o ∈ os, ¬ o.IsUrgent) : Unhurried (os.map .order) := by
  intro o ho
  rw [ordersOf_map_order] at ho
  exact h o ho

/-- How urgent orders stand on a stack: none is there, or one is the next task,
or a document is asked for right after the source was entered. -/
inductive Prompt (t : Searches) : List Task → Prop
  /-- No order is urgent. -/
  | calm {stack : List Task} : Unhurried stack → Prompt t stack
  /-- A caller is told of a match. -/
  | telling {i : Id} {m : Bindings} {stack : List Task} :
      Unhurried stack → Prompt t (.order (.deliver i m) :: stack)
  /-- A caller is told that his search is done, as things stand. -/
  | ending {i : Nat} {x : Search} {stack : List Task} :
      t.searches[i]? = some x → Unhurried stack →
      Prompt t (.order (.finish i x.result) :: stack)
  /-- The source is entered to ask for a document, on behalf of a search that
  goes on. -/
  | entering {d : String} {f : Frame} {x : Search} {stack : List Task} :
      t.searches[f.search]? = some x → x.stopped = false → Unhurried stack →
      Prompt t (.order .enterSource :: .order (.request d) ::
        .order (.job (.await f d true)) :: stack)
  /-- A document is asked for, on behalf of a search that goes on. -/
  | asking {d : String} {f : Frame} {x : Search} {stack : List Task} :
      t.searches[f.search]? = some x → x.stopped = false → Unhurried stack →
      Prompt t (.order (.request d) :: .order (.job (.await f d true)) :: stack)

/-- **What a job leaves is done promptly.** -/
theorem Transition.prompt (h : Transition env t job t' os) (hstack : Unhurried stack) :
    Prompt t' (os.map .order ++ stack) := by
  have calm : (∀ o ∈ os, ¬ o.IsUrgent) → Prompt t' (os.map .order ++ stack) :=
    fun hos => .calm ((unhurried_orders hos).append hstack)
  cases h with
  | @asked f x d hx hs _ _ =>
    exact .entering hx hs (hstack.cons (o := .leaveSource) (by simp [Order.IsUrgent]))
  | @finished b y x _ _ _ hx =>
    have hx' : (t.searches.insert y.search { x with finished := true })[y.search]? =
        some { x with finished := true } := by simp
    exact .ending (x := { x with finished := true }) hx' hstack
  | delivered hx hq =>
    exact .telling (hstack.cons (o := .job (.drain _)) (by simp [Order.IsUrgent]))
  | split _ _ _ _ _ => exact calm (t.forall_mem_split _ fun _ => by simp [Order.IsUrgent])
  | expanded _ _ _ _ _ _ =>
    exact calm (forall_mem_steps (fun _ _ => by simp [Order.IsUrgent]) (by simp [Order.IsUrgent]))
  | _ => exact calm (by simp [Order.IsUrgent])

namespace Session

variable {s : Session} {r : Session × List Task}

theorem Aside.unhurried (h : s.Aside r) : Unhurried r.2 :=
  unhurried_of_ordersOf h.orders

/-- **A task that is no order leaves nothing urgent.** -/
theorem unhurried_exec (s : Session) {task : Task} (ho : task.order? = none) :
    Unhurried (s.exec task).2 := by
  cases s.exec_does task ho with
  | aside h _ => exact h.unhurried
  | merge _ _ _ htasks _ => exact unhurried_of_ordersOf htasks
  | launch _ _ hr _ _ => simp [Unhurried, hr.orders, Order.IsUrgent]
  | stop _ hr _ | cancel _ hr _ => exact unhurried_of_ordersOf hr.orders
  | resume n hr _ =>
    intro o ho
    rw [hr.orders] at ho
    unfold Searches.resume at ho
    split at ho
    · cases ho
    · obtain rfl := List.mem_singleton.1 ho
      simp [Order.IsUrgent]
  | discard n hr _ =>
    intro o ho
    rw [hr.orders] at ho
    unfold Searches.discard at ho
    split at ho
    · cases ho
    · obtain rfl := List.mem_singleton.1 ho
      simp [Order.IsUrgent]

/-- An order that is no job leaves nothing urgent. -/
theorem unhurried_obey (s : Session) {o : Order} (ho : ∀ job, o ≠ .job job) :
    Unhurried (s.obey o).2 :=
  (s.aside_obey ho).unhurried

end Session

namespace Moment

variable {m m' : Moment}

/-- Urgent orders are carried out at once. -/
def IsPrompt (m : Moment) : Prop :=
  Prompt m.session.searches m.stack

/-- **A session stays prompt.** -/
theorem Next.prompt (h : Next m m') (hm : m.IsSound) (hp : m.IsPrompt) : m'.IsPrompt := by
  cases h with
  | command c => exact .calm (unhurried_of_ordersOf rfl)
  | @task s task stack told =>
    cases hp with
    | calm hcalm =>
      cases ho : task.order? with
      | none => exact .calm ((s.unhurried_exec ho).append hcalm.tail)
      | some o =>
        obtain rfl := Task.eq_order ho
        cases o with
        | job job => exact (Sound.transition hm.sound s.surroundings).prompt hcalm.tail
        | _ => exact .calm ((s.unhurried_obey (by simp)).append hcalm.tail)
    | telling hcalm | ending _ hcalm => exact .calm ((s.unhurried_obey (by simp)).append hcalm)
    | entering hx hs hcalm => exact .asking hx hs hcalm
    | asking hx hs hcalm =>
      exact .calm ((s.unhurried_obey (by simp)).append
        (hcalm.cons (by simp [Order.IsUrgent])))

/-- **Every moment of a session is prompt.** -/
theorem Leads.prompt (h : Leads m m') (hm : m.IsSound) (hp : m.IsPrompt) : m'.IsPrompt := by
  induction h with
  | refl => exact hp
  | tail hlead hnext ih => exact hnext.prompt (Leads.steps hlead hm).2 ih

theorem isPrompt_start (g : Graph) (source : Option Source) (config : SearchConfig) :
    (start g source config).IsPrompt :=
  .calm (unhurried_of_ordersOf rfl)

end Moment

end TripleQuery
