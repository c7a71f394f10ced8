import RustTrader.Fix.Business

/-!
# What the writer writes

`writer_loop` of `fix/session.rs` turns what is queued for a client into messages.
The engine reports under numbers; the writer puts the texts of the connection
back, for the order a report answers to and for the one it replaces.
-/

namespace RustTrader.Fix

variable {D : Type} [Decimal D]

/-- The first value under a tag. -/
def fieldOf (fields : Fields) (tag : Nat) : Option String :=
  (fields.find? fun field => field.1 == tag).map Prod.snd

@[simp] theorem fieldOf_nil (tag : Nat) : fieldOf [] tag = none := rfl

@[simp] theorem fieldOf_cons (field : Nat × String) (fields : Fields) (tag : Nat) :
    fieldOf (field :: fields) tag = if field.1 = tag then some field.2 else fieldOf fields tag := by
  unfold fieldOf
  by_cases here : field.1 = tag
  · simp [here]
  · simp [here, beq_false_of_ne here]

@[simp] theorem fieldOf_append (front back : Fields) (tag : Nat) :
    fieldOf (front ++ back) tag = (fieldOf front tag).or (fieldOf back tag) := by
  induction front with
  | nil => simp
  | cons field front ih =>
    rw [List.cons_append, fieldOf_cons, fieldOf_cons, ih]
    split <;> rfl

theorem fieldOf_setField (tag : Nat) (value : String) (fields : Fields) (sought : Nat) :
    fieldOf (setField tag value fields) sought =
      if sought = tag then (fieldOf fields tag).map fun _ => value else fieldOf fields sought := by
  induction fields with
  | nil => simp [setField]
  | cons field fields ih =>
    unfold setField
    by_cases here : field.1 = tag
    · rw [if_pos here]
      by_cases same : sought = tag
      · subst same
        simp [here]
      · simp [same, here, Ne.symm same]
    · rw [if_neg here, fieldOf_cons, ih]
      by_cases same : sought = tag
      · subst same
        simp [here]
      · simp [same]

/-- A number that a text stands for is replaced by the text. -/
def wireText (ids : WireIdMap) (value : String) : String :=
  ((Numeral.parseSigned 32 value).bind ids.wireFor).getD value

def translateOrig (ids : WireIdMap) (field : Nat × String) : Nat × String :=
  if field.1 = 41 then (field.1, wireText ids field.2) else field

/-- The fields a report is written with. -/
def writtenReport (now : String) (ids : WireIdMap) (report : Report D) : Fields :=
  let fields := (buildExecutionReport now report).map (translateOrig ids)
  match ids.wireFor (clOrdIdOf report) with
  | some wire => setField 11 wire fields
  | none => fields

/-- The type and the fields of what is written for a queued message; the other ones
are sequence resets and the end of the connection. -/
def OutMsg.written (now : String) (ids : WireIdMap) : OutMsg D → Option (String × Fields)
  | .message msgType fields => some (msgType, fields)
  | .report news => some ("8", writtenReport now ids news)
  | .logoutAndShutdown fields => some ("5", fields)
  | .gapFill .. | .shutdown => none

theorem fieldOf_translateOrig (ids : WireIdMap) (fields : Fields) (tag : Nat) :
    fieldOf (fields.map (translateOrig ids)) tag =
      if tag = 41 then (fieldOf fields tag).map (wireText ids) else fieldOf fields tag := by
  induction fields with
  | nil => simp
  | cons field fields ih =>
    rw [List.map_cons, fieldOf_cons, ih]
    by_cases orig : field.1 = 41
    · simp only [translateOrig, orig, if_true, fieldOf_cons]
      by_cases here : 41 = tag
      · simp [← here]
      · simp [here, Ne.symm here]
    · simp only [translateOrig, if_neg orig, fieldOf_cons]
      by_cases same : tag = 41
      · subst same
        simp [orig]
      · simp [same]

section Written

variable (now : String) (ids : WireIdMap) (report : Report D)

theorem built_clOrdId (regular : clOrdIdOf report ≠ 0) :
    fieldOf (buildExecutionReport now report) 11 = some (toString (clOrdIdOf report)) := by
  simp [buildExecutionReport, regular]

theorem built_orig : fieldOf (buildExecutionReport now report) 41 =
    (origClOrdIdOf report).map toString := by
  cases orig : origClOrdIdOf report with
  | none =>
    simp [buildExecutionReport, orig]
    split <;> split <;> simp
  | some id =>
    simp [buildExecutionReport, orig]
    split <;> simp

variable {now ids report}

theorem written_clOrdId (regular : clOrdIdOf report ≠ 0) {wire : String}
    (named : ids.wireFor (clOrdIdOf report) = some wire) :
    fieldOf (writtenReport now ids report) 11 = some wire := by
  unfold writtenReport
  dsimp only
  rw [named]
  dsimp only
  rw [fieldOf_setField, if_pos rfl, fieldOf_translateOrig, if_neg (by decide),
    built_clOrdId _ _ regular]
  rfl

theorem written_orig : fieldOf (writtenReport now ids report) 41 =
    (origClOrdIdOf report).map fun id => wireText ids (toString id) := by
  unfold writtenReport
  dsimp only
  split
  · rw [fieldOf_setField, if_neg (by decide), fieldOf_translateOrig, if_pos rfl, built_orig,
      Option.map_map]
    rfl
  · rw [fieldOf_translateOrig, if_pos rfl, built_orig, Option.map_map]
    rfl

/-- A number is written as its text, also after its digits have been read back. -/
theorem wireText_number {id : OrderId} {wire : String} (paired : ids.Paired)
    (named : ids.wireFor id = some wire) : wireText ids (toString id) = wire := by
  obtain ⟨positive, bound⟩ := paired.range wire id named
  obtain ⟨n, rfl⟩ := Int.eq_ofNat_of_zero_le positive.le
  have limit : (n : Int) ≤ 2 ^ 31 - 1 := bound
  have small : n < 2 ^ 31 := by omega
  have parsed : Numeral.parseSigned 32 (toString (n : Int)) = some (n : Int) :=
    Numeral.parseSigned_repr small
  unfold wireText
  rw [parsed, Option.bind_some]
  change ids.wireFor (n : Int) = some wire at named
  rw [named]
  rfl

end Written

end RustTrader.Fix
