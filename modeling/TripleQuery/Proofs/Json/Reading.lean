import TripleQuery.Proofs.Json.Nesting
/-!
# Reading back — what typed readers make of a written text

A reader that may open some number of levels reads a written value back when
the text needs no more, leaving what follows it, and finds the text malformed
when it needs more (`Reads`). It never finds another value. Each reader passes
this on from the readers of its parts: lists (`reads_list`), tagged values
(`reads_tagged`), and records, whose members fill one field after the other
(`Fills`, `reads_record`).
-/

namespace TripleQuery

namespace Json

variable {α β σ : Type} {room l : Nat} {w : List Char} {a : α} {b : β}

/-- With so many levels to open, a reader reads a value from a text that takes
some number of levels, or finds the text malformed if these are too many. -/
def Reads (r : Reader α) (room : Nat) (w : List Char) (l : Nat) (a : α) : Prop :=
  ∀ rest, r (w ++ rest) = if l ≤ room then .ok (a, rest) else .error .malformed

/-- A text that begins with a string or an object. -/
inductive Opens : List Char → Prop
  | string (cs : List Char) : Opens ('"' :: cs)
  | object (cs : List Char) : Opens ('{' :: cs)

theorem opens_writeString (s : String) : Opens (writeString s) := .string _

theorem opens_writeTagged (tag : String) (w : List Char) : Opens (writeTagged tag w) := .object _

/-- The first character that is not white space is where reading goes on. -/
theorem skipSpace_cons {c : Char} (h : isBlank c = false) (cs : List Char) :
    skipSpace (c :: cs) = c :: cs := by
  rw [skipSpace, List.dropWhile_cons_of_neg (by simp [h])]

/-- A reader that makes something of what another one reads. -/
theorem Reads.map {r : Reader α} (f : α → β) (h : Reads r room w l a) :
    Reads (fun cs => (r cs).map fun (a, rest) => (f a, rest)) room w l (f a) := by
  intro rest
  dsimp only
  rw [h rest]
  split <;> rfl

/-- Several parts take no less than their commas. -/
theorem length_le_length_flatMap (write : α → List Char) (as : List α) :
    as.length ≤ (as.flatMap fun a => ',' :: write a).length := by
  induction as with
  | nil => exact Nat.le_refl 0
  | cons a as ih =>
    simp only [List.flatMap_cons, List.length_append, List.length_cons]
    omega

/-! ## Strings and optional values -/

theorem writeString_append (s : String) (rest : List Char) :
    writeString s ++ rest = '"' :: ((writeString s).tail ++ rest) := rfl

/-- **A string is read back.** -/
theorem reads_text (s : String) : Reads text room (writeString s) 0 s := by
  intro rest
  rw [text, writeString_append, skipSpace_cons rfl, if_pos (Nat.zero_le room)]
  exact readString_writeString s rest

theorem reads_optional {r : Reader α} (hw : Opens w) (h : Reads r room w l a) :
    Reads (optional r) room w l (some a) := by
  intro rest
  have hmap := h.map some rest
  cases hw with
  | string cs => rw [optional, List.cons_append, skipSpace_cons rfl]; exact hmap
  | object cs => rw [optional, List.cons_append, skipSpace_cons rfl]; exact hmap

theorem reads_optional_writeNull (r : Reader α) : Reads (optional r) room writeNull 0 none := by
  intro rest
  rw [if_pos (Nat.zero_le room)]
  rfl

/-- **An optional value is read back, and so is its absence.** -/
theorem reads_writeOption {r : Reader α} {write : α → List Char} {depth : α → Nat}
    (hopens : ∀ a, Opens (write a)) (h : ∀ a, Reads r room (write a) (depth a) a)
    (o : Option α) : Reads (optional r) room (writeOption write o) (o.elim 0 depth) o := by
  cases o with
  | none => exact reads_optional_writeNull r
  | some a => exact reads_optional (hopens a) (h a)

/-! ## Lists -/

section

variable {r : Reader α} {write : α → List Char} {depth : α → Nat} {as : List α}

theorem nextElement_true {rest : List Char} (hw : Opens w) :
    nextElement true (w ++ rest) = .ok (true, w ++ rest) := by
  cases hw <;> rfl

theorem nextElement_comma {rest : List Char} (hw : Opens w) :
    nextElement false (',' :: (w ++ rest)) = .ok (true, w ++ rest) := by
  cases hw <;> rfl

/-- An element is read, and then the others. -/
theorem elements_cons {isFirst : Bool} {cs tail rest : List Char} {fuel m : Nat}
    (hnext : nextElement isFirst cs = .ok (true, write a ++ tail))
    (ha : Reads r room (write a) (depth a) a)
    (htail : elements r fuel false tail =
      if m ≤ room then .ok (as, rest) else .error .malformed) :
    elements r (fuel + 1) isFirst cs =
      if max (depth a) m ≤ room then .ok (a :: as, rest) else .error .malformed := by
  rw [elements, hnext]
  dsimp only
  rw [ha tail]
  by_cases hl : depth a ≤ room
  · rw [if_pos hl]
    dsimp only
    rw [htail]
    by_cases hm : m ≤ room
    · rw [if_pos hm, if_pos (Nat.max_le.2 ⟨hl, hm⟩)]
    · rw [if_neg hm, if_neg fun h => hm (Nat.max_le.1 h).2]
  · rw [if_neg hl, if_neg fun h => hl (Nat.max_le.1 h).1]

/-- The elements after the first are read back up to the closing bracket. -/
theorem elements_flatMap (hopens : ∀ a, Opens (write a))
    (h : ∀ a ∈ as, Reads r room (write a) (depth a) a) {fuel : Nat} (hfuel : as.length < fuel)
    (rest : List Char) :
    elements r fuel false (as.flatMap (fun a => ',' :: write a) ++ ']' :: rest) =
      if (as.map depth).foldr max 0 ≤ room then .ok (as, rest) else .error .malformed := by
  induction as generalizing fuel with
  | nil =>
    obtain ⟨fuel, rfl⟩ := Nat.exists_eq_add_one_of_ne_zero (Nat.ne_of_gt hfuel)
    rw [List.map_nil, List.foldr_nil, if_pos (Nat.zero_le room)]
    rfl
  | cons a as ih =>
    obtain ⟨fuel, rfl⟩ := Nat.exists_eq_add_one_of_ne_zero (Nat.ne_of_gt (Nat.zero_lt_of_lt hfuel))
    rw [List.flatMap_cons, List.append_assoc]
    exact elements_cons (nextElement_comma (hopens a)) (h a List.mem_cons_self)
      (ih (fun a' ha' => h a' (List.mem_cons_of_mem _ ha')) (Nat.lt_of_succ_lt_succ hfuel))

/-- **A list is read back** when each of its elements is, with one level less. -/
theorem reads_list {r : Nat → Reader α} (hopens : ∀ a, Opens (write a))
    (h : ∀ room', room = room' + 1 → ∀ a ∈ as, Reads (r room') room' (write a) (depth a) a) :
    Reads (list r room) room (writeArray (as.map write)) ((as.map depth).foldr max 0 + 1) as := by
  intro rest
  rw [writeArray, List.append_assoc, List.cons_append]
  cases room with
  | zero => rfl
  | succ room =>
    have hread := h room rfl
    change elements (r room) (_ + 1) true _ = _
    simp only [Nat.add_le_add_iff_right]
    cases as with
    | nil => rfl
    | cons a as =>
      rw [List.map_cons, commaSeparated_cons, List.append_assoc, List.flatMap_map]
      refine elements_cons (nextElement_true (hopens a)) (hread a List.mem_cons_self)
        (elements_flatMap hopens (fun a' ha' => hread a' (List.mem_cons_of_mem _ ha')) ?_ rest)
      -- each element takes at least its comma
      have hcommas := length_le_length_flatMap write as
      simp only [List.length_append, List.length_cons]
      omega

end

/-! ## Tagged values -/

theorem tagged_object (tags : String → Option (Tagged α)) (room : Nat) (cs : List Char) :
    tagged tags (room + 1) ('{' :: cs) =
      match tagAndValue tags room cs with
      | .error e => .error e
      | .ok (a, rest) => (closeTagged rest).map (a, ·) := rfl

/-- **A tagged value is read back** when the value is, with one level less. -/
theorem reads_tagged {tags : String → Option (Tagged α)} {tag : String} {r : Nat → Reader α}
    (htag : tags tag = some (.carrying r))
    (h : ∀ room', room = room' + 1 → Reads (r room') room' w l a) :
    Reads (tagged tags room) room (writeTagged tag w) (l + 1) a := by
  intro rest
  have htext : writeTagged tag w ++ rest =
      '{' :: writeString tag ++ ':' :: (w ++ '}' :: rest) := by
    simp [writeTagged, writeObject, writeMember, commaSeparated]
  rw [htext]
  cases room with
  | zero => rfl
  | succ room =>
    have hvalue : tagAndValue tags room (writeString tag ++ ':' :: (w ++ '}' :: rest)) =
        r room (w ++ '}' :: rest) := by
      have hname : Json.tag (writeString tag ++ ':' :: (w ++ '}' :: rest)) =
          .ok (tag, ':' :: (w ++ '}' :: rest)) := readString_writeString tag _
      rw [tagAndValue, hname]
      dsimp only
      rw [htag]
      rfl
    rw [List.cons_append, tagged_object, hvalue, h room rfl]
    simp only [Nat.add_le_add_iff_right]
    by_cases hl : l ≤ room
    · rw [if_pos hl, if_pos hl]
      rfl
    · rw [if_neg hl, if_neg hl]

/-! ## Records -/

/-- Members fill the fields of a record one after the other: each is a field
that was not read before, and its text is read back as what the record has more
afterwards. -/
inductive Fills (fields : List (Field σ)) (room : Nat) :
    σ → List (String × List Char) → Nat → σ → Prop
  | nil {s : σ} : Fills fields room s [] 0 s
  | cons {s s' s'' : σ} {f : Field σ} {name : String} {w : List Char} {l m : Nat}
      {ms : List (String × List Char)} :
      fields.find? (·.name = name) = some f → f.isSet s = false →
      Reads (f.read room s) room w l s' → Fills fields room s' ms m s'' →
      Fills fields room s ((name, w) :: ms) (max l m) s''

section

variable {fields : List (Field σ)} {s s' s'' : σ} {f : Field σ} {name : String} {m : Nat}
  {ms : List (String × List Char)}

/-- A member is read, and then the others. -/
theorem members_cons {isFirst : Bool} {cs tail rest : List Char} {fuel : Nat}
    (hnext : nextMember isFirst cs =
      .ok (true, (writeString name).tail ++ ':' :: (w ++ tail)))
    (hfind : fields.find? (·.name = name) = some f) (hset : f.isSet s = false)
    (hread : Reads (f.read room s) room w l s')
    (htail : members fields room fuel false s' tail =
      if m ≤ room then .ok (s'', rest) else .error .malformed) :
    members fields room (fuel + 1) isFirst s cs =
      if max l m ≤ room then .ok (s'', rest) else .error .malformed := by
  have hmember : member fields room s name (':' :: (w ++ tail)) = f.read room s (w ++ tail) := by
    rw [member, hfind]
    dsimp only
    rw [hset]
    rfl
  rw [members, hnext]
  dsimp only
  rw [readString_writeString]
  dsimp only
  rw [hmember, hread tail]
  by_cases hl : l ≤ room
  · rw [if_pos hl]
    dsimp only
    rw [htail]
    by_cases hm : m ≤ room
    · rw [if_pos hm, if_pos (Nat.max_le.2 ⟨hl, hm⟩)]
    · rw [if_neg hm, if_neg fun h => hm (Nat.max_le.1 h).2]
  · rw [if_neg hl, if_neg fun h => hl (Nat.max_le.1 h).1]

theorem writeMember_append (name : String) (w tail : List Char) :
    writeMember name w ++ tail = '"' :: ((writeString name).tail ++ ':' :: (w ++ tail)) := by
  rw [writeMember, List.append_assoc, writeString_append, List.cons_append]

/-- The members after the first are read back up to the closing bracket. -/
theorem members_flatMap (h : Fills fields room s ms l s') {fuel : Nat} (hfuel : ms.length < fuel)
    (rest : List Char) :
    members fields room fuel false s
        (ms.flatMap (fun m => ',' :: writeMember m.1 m.2) ++ '}' :: rest) =
      if l ≤ room then .ok (s', rest) else .error .malformed := by
  induction h generalizing fuel with
  | nil =>
    obtain ⟨fuel, rfl⟩ := Nat.exists_eq_add_one_of_ne_zero (Nat.ne_of_gt hfuel)
    rw [if_pos (Nat.zero_le room)]
    rfl
  | cons hfind hset hread _ ih =>
    obtain ⟨fuel, rfl⟩ := Nat.exists_eq_add_one_of_ne_zero (Nat.ne_of_gt (Nat.zero_lt_of_lt hfuel))
    rw [List.flatMap_cons, List.append_assoc, List.cons_append, writeMember_append]
    exact members_cons rfl hfind hset hread (ih (Nat.lt_of_succ_lt_succ hfuel))

theorem record_object (fields : List (Field σ)) (partly : Bool) (blank : σ)
    (build : σ → Option α) (room : Nat) (cs : List Char) :
    record fields partly blank build (room + 1) ('{' :: cs) =
      match members fields room (cs.length + 1) true blank cs with
      | .error e => .error e
      | .ok (s, rest) =>
        match build s with
        | some a => .ok (a, rest)
        | none => .error .mismatch := rfl

/-- **A record is read back** when its members fill its fields, with one level
less. -/
theorem reads_record {partly : Bool} {blank : σ} {build : σ → Option α}
    (h : ∀ room', room = room' + 1 → Fills fields room' blank ms l s)
    (hbuild : build s = some a) :
    Reads (record fields partly blank build room) room (writeObject ms) (l + 1) a := by
  intro rest
  rw [writeObject, List.append_assoc, List.cons_append]
  cases room with
  | zero => rfl
  | succ room =>
    have hmembers : members fields room
        ((commaSeparated (ms.map fun m => writeMember m.1 m.2) ++ '}' :: rest).length + 1) true
        blank (commaSeparated (ms.map fun m => writeMember m.1 m.2) ++ '}' :: rest) =
          if l ≤ room then .ok (s, rest) else .error .malformed := by
      cases h room rfl with
      | nil => rw [if_pos (Nat.zero_le room)]; rfl
      | @cons _ _ _ _ name w _ _ ms hfind hset hread hfills =>
        rw [List.map_cons, commaSeparated_cons, List.append_assoc, List.flatMap_map]
        refine members_cons (by rw [writeMember_append]; rfl) hfind hset hread
          (members_flatMap hfills ?_ rest)
        -- each member takes at least its comma
        have hcommas := length_le_length_flatMap (fun m => writeMember m.1 m.2) ms
        simp only [List.length_append, List.length_cons]
        omega
    rw [List.singleton_append, record_object, hmembers]
    simp only [Nat.add_le_add_iff_right]
    by_cases hl : l ≤ room
    · rw [if_pos hl, if_pos hl]
      dsimp only
      rw [hbuild]
    · rw [if_neg hl, if_neg hl]

/-- A field is read as its value is. -/
theorem reads_field {r : Nat → Reader β} {get : σ → Option β} {put : β → σ → σ}
    (h : Reads (r room) room w l b) :
    Reads ((Field.of name r get put).read room s) room w l (put b s) :=
  h.map fun b => put b s

end

/-! ## Whole texts -/

/-- **A text that holds one written value is read back** unless it nests too
deeply. -/
theorem readText_ofList {r : Nat → Reader α} (h : Reads (r maxDepth) maxDepth w l a) :
    readText r (String.ofList w) = if l ≤ maxDepth then .ok a else .error .malformed := by
  have hw := h []
  rw [List.append_nil] at hw
  rw [readText, String.toList_ofList, hw]
  by_cases hl : l ≤ maxDepth
  · rw [if_pos hl, if_pos hl]
    rfl
  · rw [if_neg hl, if_neg hl]

end Json

end TripleQuery
