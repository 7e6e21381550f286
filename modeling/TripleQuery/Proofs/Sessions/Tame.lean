import TripleQuery.Proofs.Fetching.Ahead
import TripleQuery.Proofs.Sessions.Deeds
/-!
# Tame tasks — callbacks that leave the source of documents alone

A command is tame if it leaves the source of documents alone, and what it adds to
the store or starts a search with mentions only some documents
(`Command.IsTame`). So are the commands that it leaves for callbacks. What a
command is worth (`Command.weight`) are all the commands that come of it, so that
those in the callbacks of a search are worth less than what starts it.
-/

namespace TripleQuery

/-! ## Tame commands -/

/-- The documents that an edit adds to what the store mentions. -/
def StoreEdit.documents : StoreEdit → List String
  | .add s => s.documents
  | .extend ss => ss.flatMap Statement.documents
  | .equate _ _ => []

/-- A command leaves the source of documents alone, though it may look at it. What
it leaves for callbacks is not considered. -/
def Command.isQuiet : Command → Bool
  | .library .status => true
  | .library _ | .script _ | .request _ | .onAvailable _ _ _ => false
  | _ => true

/-- The documents that a command adds to those that are mentioned: what it puts
into the store, and the fixed values of what it searches for. -/
def Command.adds : Command → List String
  | .edit e => e.documents
  | .search _ p _ _ | .searchAll p | .searchChannel _ p => p.documents
  | _ => []

mutual

/-- A command, and those that it leaves for callbacks. -/
def Command.parts : Command → List Command
  | .search name p onMatch onDone =>
    .search name p onMatch onDone :: (partsOfLists onMatch ++ partsOfList onDone)
  | c => [c]

/-- Some commands, and those that they leave for callbacks. -/
def Command.partsOfList : List Command → List Command
  | [] => []
  | c :: cs => c.parts ++ partsOfList cs

/-- The commands at each match, and those that they leave for callbacks. -/
def Command.partsOfLists : List (List Command) → List Command
  | [] => []
  | cs :: css => partsOfList cs ++ partsOfLists css

end

/-- A command leaves the source of documents alone and adds only these documents,
and so do those that it leaves for callbacks. -/
def Command.IsTame (D : Finset String) (c : Command) : Prop :=
  ∀ part ∈ c.parts, part.isQuiet ∧ ∀ d ∈ part.adds, d ∈ D

/-- The commands that a listener runs. -/
def Listener.commands : Listener → List Command
  | .script _ onMatch onDone => onMatch.flatten ++ onDone
  | .collector _ _ | .channel _ _ => []

/-- The commands that whoever waits for a document runs. -/
def Callback.commands : Callback → List Command
  | .resume _ => []
  | .notify _ cs => cs

/-- Whoever waits for a document runs tame commands only. -/
def Callback.IsTame (D : Finset String) (c : Callback) : Prop :=
  ∀ command ∈ c.commands, command.IsTame D

@[simp] theorem Callback.isTame_resume (D : Finset String) (n : Id) : (resume n).IsTame D := by
  simp [Callback.IsTame, Callback.commands]

/-- A task that runs tame commands only, and asks for these documents only. -/
def Task.IsTame (D : Finset String) : Task → Prop
  | .command c => c.IsTame D
  | .call c _ | .discard c => c.IsTame D
  | .order (.request d) => documentPart d ∈ D
  | _ => True

/-- The search whose end a task tells. -/
def Task.ends? : Task → Option Id
  | .order (.finish i _) => some i
  | _ => none

/-- A source of documents whose watchers are tame, and whose documents mention
these only. -/
def Source.IsTame (D : Finset String) : Source → Prop
  | .library _ l => l.Within D (Callback.IsTame D)
  | .scripted _ => False

namespace Command

variable {D : Finset String} {name : String} {p : Pattern} {c : Command} {cs : List Command}
  {onMatch : List (List Command)} {onDone : List Command}

theorem mem_parts_self (c : Command) : c ∈ c.parts := by
  cases c <;> exact List.mem_cons_self

theorem parts_subset_of_mem (h : c ∈ cs) : c.parts ⊆ partsOfList cs := by
  induction cs with
  | nil => cases h
  | cons first cs ih =>
    rcases List.mem_cons.1 h with rfl | h
    · exact List.subset_append_left _ _
    · exact List.subset_append_of_subset_right _ (ih h)

theorem partsOfList_subset_of_mem (h : cs ∈ onMatch) : partsOfList cs ⊆ partsOfLists onMatch := by
  induction onMatch with
  | nil => cases h
  | cons first onMatch ih =>
    rcases List.mem_cons.1 h with rfl | h
    · exact List.subset_append_left _ _
    · exact List.subset_append_of_subset_right _ (ih h)

namespace IsTame

theorem isQuiet (h : c.IsTame D) : c.isQuiet :=
  (h c c.mem_parts_self).1

theorem mem_of_adds {d : String} (h : c.IsTame D) (hd : d ∈ c.adds) : d ∈ D :=
  (h c c.mem_parts_self).2 d hd

/-- What a tame search leaves for callbacks is tame. -/
theorem of_listener (h : (search name p onMatch onDone).IsTame D) :
    ∀ c ∈ (Listener.script name onMatch onDone).commands, c.IsTame D := by
  intro c hc part hpart
  refine h part (List.mem_cons_of_mem _ ?_)
  rcases List.mem_append.1 hc with hc | hc
  · obtain ⟨cs, hcs, hc⟩ := List.mem_flatten.1 hc
    exact List.mem_append_left _ (partsOfList_subset_of_mem hcs (parts_subset_of_mem hc hpart))
  · exact List.mem_append_right _ (parts_subset_of_mem hc hpart)

end IsTame

end Command

/-! ## What commands are worth -/

mutual

/-- How many commands a command brings about, itself included, each counted twice
that runs in a callback: its answer is reported. -/
def Command.weight : Command → ℕ
  | .search _ _ onMatch onDone => weightOfLists onMatch + weightOfList onDone + 1
  | _ => 1

/-- What commands in a callback are worth. -/
def Command.weightOfList : List Command → ℕ
  | [] => 0
  | c :: cs => c.weight + 1 + weightOfList cs

/-- What the commands at each match are worth. -/
def Command.weightOfLists : List (List Command) → ℕ
  | [] => 0
  | cs :: css => weightOfList cs + weightOfLists css

end

/-- What a listener is yet to run is worth. Once the search is over, that is what
he has left of the matches. -/
def Listener.weight (isEnded : Bool) : Listener → ℕ
  | .script _ onMatch onDone =>
    Command.weightOfLists onMatch + if isEnded then 0 else Command.weightOfList onDone
  | .collector _ _ | .channel _ _ => 0

def Callback.weight : Callback → ℕ
  | .resume _ => 0
  | .notify _ cs => Command.weightOfList cs + 1

def Task.weight : Task → ℕ
  | .command c => c.weight
  | .acted => 1
  | .call c _ | .discard c => c.weight
  | _ => 0

/-- What a source of documents has before it: those who are to be called, and
documents. -/
def Source.toil (D : Finset String) : Source → ℕ
  | .library _ l => l.load Callback.weight + l.ahead D
  | .scripted _ => 0

theorem Task.weight_order (o : Order) : (Task.order o).weight = 0 := rfl

theorem Task.sum_weight_perform (cs : List Command) :
    ((Task.perform cs).map Task.weight).sum = Command.weightOfList cs := by
  induction cs with
  | nil => rfl
  | cons c cs ih =>
    have hsplit : perform (c :: cs) = [.command c, .acted] ++ perform cs := rfl
    simp only [hsplit, List.map_append, List.sum_append, ih, List.map_cons, List.map_nil,
      List.sum_cons, List.sum_nil, Task.weight, Command.weightOfList, Nat.add_zero]

theorem Task.isTame_of_mem_perform {D : Finset String} {cs : List Command} {task : Task}
    (h : ∀ c ∈ cs, c.IsTame D) (ht : task ∈ Task.perform cs) : task.IsTame D := by
  obtain ⟨c, hc, ht⟩ := List.mem_flatMap.1 ht
  simp only [List.mem_cons, List.not_mem_nil, or_false] at ht
  rcases ht with rfl | rfl
  · exact h c hc
  · trivial

/-- An order is tame unless it asks for other documents. -/
theorem Task.isTame_order {D : Finset String} {o : Order}
    (h : ∀ d, o = .request d → documentPart d ∈ D) : (Task.order o).IsTame D := by
  cases o with
  | request d => exact h d rfl
  | _ => trivial

end TripleQuery
