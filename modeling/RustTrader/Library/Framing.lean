import Mathlib.Data.List.Infix

/-!
# Resumable decoders

A decoder looks at the elements it holds and either asks for more of them, at
most a number it names, or is done with a message. It is fed by a source that
hands out pieces of any length, and fails at will; a call ends with a message or
with a failure that is not retried, and the elements held stay for the next one.
A decoder that never asks beyond the end of a frame reads any sequence of frames,
whatever the pieces and the failures.
-/

namespace Framing

variable {B M E : Type}

inductive Poll (M : Type) where
  | want (limit : Nat)
  | done (message : M)
  | invalid

/-- What a source does when it is read: it hands out a piece of at most
`spare + 1` elements, or fails. -/
inductive Event (E : Type) where
  | piece (spare : Nat)
  | fail (err : E)

/-- How a call ends; `waiting` when the source does nothing more. -/
inductive Result (M E : Type) where
  | message (m : M)
  | ended
  | failed (err : E)
  | truncated
  | invalid
  | waiting

/-- One call, from what is held and what the source has left. -/
def read (poll : List B → Poll M) (retry : E → Bool) :
    List (Event E) → List B → List B → Result M E × List B × List B × List (Event E)
  | script, held, data =>
    match poll held with
    | .done m => (.message m, [], data, script)
    | .invalid => (.invalid, held, data, script)
    | .want limit =>
      match script with
      | [] => (.waiting, held, data, [])
      | .fail err :: script =>
        if retry err then read poll retry script held data else (.failed err, held, data, script)
      | .piece spare :: script =>
        let piece := data.take (min (spare + 1) limit)
        if piece = [] then (if held = [] then .ended else .truncated, held, data, script)
        else read poll retry script (held ++ piece) (data.drop piece.length)

/-- Successive calls. -/
def calls (poll : List B → Poll M) (retry : E → Bool) :
    Nat → List (Event E) → List B → List B →
      List (Result M E) × List B × List B × List (Event E)
  | 0, script, held, data => ([], held, data, script)
  | n + 1, script, held, data =>
    let (result, held, data, script) := read poll retry script held data
    let (results, rest) := calls poll retry n script held data
    (result :: results, rest)

/-- The decoder reads `frame` as `m`: it asks for a part of what is missing, and
it is done at the end. -/
structure Frames (poll : List B → Poll M) (frame : List B) (m : M) : Prop where
  nonempty : frame ≠ []
  partly : ∀ held, held <+: frame → held ≠ frame →
    ∃ limit, poll held = .want limit ∧ 0 < limit ∧ held.length + limit ≤ frame.length
  whole : poll frame = .done m

def messages (results : List (Result M E)) : List M :=
  results.filterMap (fun r => match r with | .message m => some m | _ => none)

def errors (results : List (Result M E)) : List E :=
  results.filterMap (fun r => match r with | .failed err => some err | _ => none)

/-- The failures a script holds that are not retried. -/
def faults (retry : E → Bool) (script : List (Event E)) : List E :=
  script.filterMap (fun e => match e with
    | .fail err => if retry err then none else some err
    | .piece _ => none)

def pieces (script : List (Event E)) : Nat :=
  script.countP (fun e => match e with | .piece _ => true | .fail _ => false)

variable {poll : List B → Poll M} {retry : E → Bool}

/-- How a call may end before the end of a frame. -/
inductive Reads (frame rest : List B) (m : M) :
    Result M E × List B × List B × List (Event E) → Prop
  | message (script : List (Event E)) : Reads frame rest m (.message m, [], rest, script)
  | failed (err : E) (script : List (Event E)) {held data : List B} (part : held <+: frame)
      (open_ : held ≠ frame) (kept : held ++ data = frame ++ rest) :
      Reads frame rest m (.failed err, held, data, script)
  | waiting {held data : List B} (part : held <+: frame) (open_ : held ≠ frame)
      (kept : held ++ data = frame ++ rest) : Reads frame rest m (.waiting, held, data, [])

/-- Failures are surfaced one by one, and every piece moves an element. -/
structure Spends (retry : E → Bool) (script : List (Event E)) (data : List B)
    (out : Result M E × List B × List B × List (Event E)) : Prop where
  faults : faults retry script = errors [out.1] ++ faults retry out.2.2.2
  pieces : pieces script + out.2.2.1.length ≤ pieces out.2.2.2 + data.length

theorem read_done {held : List B} {m : M} (h : poll held = .done m) (script : List (Event E))
    (data : List B) : read poll retry script held data = (.message m, [], data, script) := by
  cases script <;> simp [read, h]

/-- A piece that stays inside a frame. -/
theorem piece_inside {frame rest held data : List B} {n : Nat} (kept : held ++ data = frame ++ rest)
    (positive : 0 < n) (within : held.length + n ≤ frame.length) :
    data.take n ≠ [] ∧ (data.drop (data.take n).length).length < data.length ∧
      held ++ data.take n <+: frame ∧
      held ++ data.take n ++ data.drop (data.take n).length = frame ++ rest := by
  have total := congrArg List.length kept
  rw [List.length_append, List.length_append] at total
  have size : (data.take n).length = n := by
    rw [List.length_take]
    omega
  have whole : held ++ data.take n ++ data.drop n = frame ++ rest := by
    rw [List.append_assoc, List.take_append_drop, kept]
  rw [size]
  refine ⟨?_, ?_, ?_, whole⟩
  · intro none_
    rw [none_, List.length_nil] at size
    omega
  · rw [List.length_drop]
    omega
  · refine List.prefix_of_prefix_length_le ⟨_, whole⟩ (List.prefix_append frame rest) ?_
    rw [List.length_append, size]
    exact within

/-- A call inside a frame. -/
theorem read_frame {frame rest : List B} {m : M} (frames : Frames poll frame m)
    (script : List (Event E)) : ∀ {held data : List B}, held <+: frame → held ≠ frame →
      held ++ data = frame ++ rest →
      Reads frame rest m (read poll retry script held data) ∧
        Spends retry script data (read poll retry script held data) := by
  induction script with
  | nil =>
    intro held data part open_ kept
    obtain ⟨limit, want, -, -⟩ := frames.partly held part open_
    rw [read, want]
    exact ⟨.waiting part open_ kept, rfl, le_refl _⟩
  | cons event script ih =>
    intro held data part open_ kept
    obtain ⟨limit, want, positive, within⟩ := frames.partly held part open_
    rw [read, want]
    cases event with
    | fail err =>
      by_cases again : retry err = true
      · simp only [again, if_true]
        obtain ⟨reads, spends⟩ := ih part open_ kept
        refine ⟨reads, ?_, ?_⟩
        · rw [← spends.faults]
          simp [faults, again]
        · exact spends.pieces
      · simp only [again]
        refine ⟨.failed err script part open_ kept, ?_, ?_⟩
        · simp [faults, errors, again]
        · simp [pieces]
    | piece spare =>
      obtain ⟨some_, fewer, part', kept'⟩ := piece_inside (n := min (spare + 1) limit) kept
        (by omega) (by omega)
      dsimp only
      rw [if_neg some_]
      have moved : pieces (.piece spare :: script) +
          (data.drop (data.take (min (spare + 1) limit)).length).length ≤
          pieces script + data.length := by
        simp only [pieces, List.countP_cons, if_true]
        omega
      by_cases full : held ++ data.take (min (spare + 1) limit) = frame
      · rw [full] at kept' ⊢
        rw [List.append_cancel_left kept'] at moved ⊢
        rw [read_done frames.whole]
        exact ⟨.message script, rfl, moved⟩
      · obtain ⟨reads, spends⟩ := ih part' full kept'
        refine ⟨reads, ?_, ?_⟩
        · rw [← spends.faults]
          rfl
        · have later := spends.pieces
          omega

/-- A call between frames, at the end of the data. -/
inductive Ends (retry : E → Bool) (script : List (Event E)) :
    Result M E × List B × List B × List (Event E) → Prop
  | ended (rest : List (Event E)) (same : faults retry script = faults retry rest) :
      Ends retry script (.ended, [], [], rest)
  | failed (err : E) (rest : List (Event E))
      (next : faults retry script = err :: faults retry rest)
      (more : pieces script = pieces rest) : Ends retry script (.failed err, [], [], rest)
  | waiting (silent : faults retry script = []) (none_ : pieces script = 0) :
      Ends retry script (.waiting, [], [], [])

theorem read_end (idle : ∃ limit, poll [] = .want limit) (script : List (Event E)) :
    Ends retry script (read poll retry script [] []) := by
  obtain ⟨limit, want⟩ := idle
  induction script with
  | nil =>
    rw [read, want]
    exact .waiting rfl rfl
  | cons event script ih =>
    rw [read, want]
    cases event with
    | piece spare =>
      simp only [List.take_nil, if_true]
      exact .ended script rfl
    | fail err =>
      have count : pieces (.fail err :: script) = pieces script := by simp [pieces]
      by_cases again : retry err = true
      · have same : faults retry (.fail err :: script) = faults retry script := by
          simp [faults, again]
        simp only [again, if_true]
        cases hr : read poll retry script [] [] with
        | mk result state =>
          rw [hr] at ih
          cases ih with
          | ended rest h => exact .ended rest (same.trans h)
          | failed err' rest h more => exact .failed err' rest (same.trans h) (count.trans more)
          | waiting silent none_ => exact .waiting (same.trans silent) (count.trans none_)
      · simp only [again]
        exact .failed err script (by simp [faults, again]) count

/-- Where a decoder stands in the frames to come. -/
inductive Positioned : List (List B × M) → List B → List B → Prop
  | finished : Positioned [] [] []
  | inside {frame : List B} {m : M} {later : List (List B × M)} {held data : List B}
      (part : held <+: frame) (open_ : held ≠ frame)
      (kept : held ++ data = frame ++ later.flatMap Prod.fst) :
      Positioned ((frame, m) :: later) held data

theorem positioned {frames : List (List B × M)} (read : ∀ f ∈ frames, Frames poll f.1 f.2) :
    Positioned frames [] (frames.flatMap Prod.fst) := by
  cases frames with
  | nil => exact .finished
  | cons f later =>
    refine .inside (List.nil_prefix) ?_ rfl
    exact (read f List.mem_cons_self).nonempty.symm

/-- What successive calls return of the frames and the failures to come, and
what they leave. -/
structure Delivers (retry : E → Bool) (frames : List (List B × M)) (script : List (Event E))
    (results : List (Result M E)) (left : List B × List B × List (Event E)) : Prop where
  kept : ∃ before after, frames = before ++ after ∧ messages results = before.map Prod.snd ∧
    left.1 ++ left.2.1 = after.flatMap Prod.fst
  errors : faults retry script = errors results ++ faults retry left.2.2
  sound : ∀ r ∈ results, r ≠ .truncated ∧ r ≠ .invalid
  finished : .ended ∈ results → messages results = frames.map Prod.snd

theorem Positioned.kept {frames : List (List B × M)} {held data : List B}
    (h : Positioned frames held data) : held ++ data = frames.flatMap Prod.fst := by
  cases h with
  | finished => rfl
  | inside part open_ kept => exact kept

theorem delivers_nil {frames : List (List B × M)} {held data : List B}
    (h : Positioned frames held data) (script : List (Event E)) :
    Delivers retry frames script [] (held, data, script) :=
  ⟨⟨[], frames, rfl, rfl, h.kept⟩, rfl, by simp, by simp⟩

namespace Delivers

variable {frames : List (List B × M)} {script script' : List (Event E)}
  {results : List (Result M E)} {left : List B × List B × List (Event E)}

/-- A call before the others that returns no message. -/
theorem silent (h : Delivers retry frames script' results left) {r : Result M E}
    (none_ : messages [r] = []) (fine : r ≠ .truncated ∧ r ≠ .invalid)
    (end_ : r = .ended → frames = [])
    (next : faults retry script = Framing.errors [r] ++ faults retry script') :
    Delivers retry frames script (r :: results) left := by
  have same : messages (r :: results) = messages results := by
    change messages ([r] ++ results) = messages results
    rw [messages, List.filterMap_append]
    change messages [r] ++ messages results = _
    rw [none_, List.nil_append]
  obtain ⟨before, after, hframes, hmessages, hleft⟩ := h.kept
  refine ⟨⟨before, after, hframes, same.trans hmessages, hleft⟩, ?_, ?_, ?_⟩
  · rw [next, h.errors, ← List.append_assoc]
    change _ = Framing.errors ([r] ++ results) ++ _
    rw [Framing.errors, Framing.errors, Framing.errors, List.filterMap_append]
  · intro r' hr
    rcases List.mem_cons.mp hr with rfl | hr
    · exact fine
    · exact h.sound r' hr
  · intro ended
    rw [same]
    rcases List.mem_cons.mp ended with here | ended
    · obtain rfl := end_ here.symm
      rw [hmessages]
      obtain ⟨rfl, -⟩ := List.append_eq_nil_iff.mp hframes.symm
      rfl
    · exact h.finished ended

theorem message {frame : List B} {m : M} (h : Delivers retry frames script' results left)
    (same : faults retry script = faults retry script') :
    Delivers retry ((frame, m) :: frames) script (.message m :: results) left := by
  obtain ⟨before, after, hframes, hmessages, hleft⟩ := h.kept
  refine ⟨⟨(frame, m) :: before, after, ?_, ?_, hleft⟩, ?_, ?_, ?_⟩
  · rw [hframes]
    rfl
  · rw [List.map_cons, ← hmessages]
    rfl
  · rw [same]
    exact h.errors
  · intro r hr
    rcases List.mem_cons.mp hr with rfl | hr
    · exact ⟨by simp, by simp⟩
    · exact h.sound r hr
  · intro ended
    rcases List.mem_cons.mp ended with impossible | ended
    · cases impossible
    · rw [List.map_cons, ← h.finished ended]
      rfl

end Delivers

/-- Whatever the pieces and the failures, the frames are read one after the
other, and nothing else; with pieces enough, to the end. -/
theorem calls_deliver (idle : ∃ limit, poll [] = .want limit) (n : Nat) :
    ∀ {frames : List (List B × M)} {script : List (Event E)} {held data : List B},
      (∀ f ∈ frames, Frames poll f.1 f.2) → Positioned frames held data →
      Delivers retry frames script (calls poll retry n script held data).1
          (calls poll retry n script held data).2 ∧
        (data.length < pieces script → frames.length + (faults retry script).length < n →
          .ended ∈ (calls poll retry n script held data).1) := by
  induction n with
  | zero =>
    intro frames script held data _ position
    exact ⟨delivers_nil position script, fun _ many => absurd many (Nat.not_lt_zero _)⟩
  | succ n ih =>
    intro frames script held data framed position
    rw [calls]
    cases position with
    | finished =>
      have here : Ends retry script (read poll retry script [] []) := read_end idle script
      cases hr : read poll retry script ([] : List B) [] with
      | mk result state =>
        rw [hr] at here
        cases here with
        | ended rest same =>
          obtain ⟨later, -⟩ := ih framed .finished
          refine ⟨later.silent rfl ⟨by simp, by simp⟩ (fun _ => rfl) same, ?_⟩
          exact fun _ _ => List.mem_cons_self
        | failed err rest next more =>
          obtain ⟨later, finishes⟩ := ih framed .finished
          refine ⟨later.silent rfl ⟨by simp, by simp⟩ (fun _ => rfl) next, ?_⟩
          intro enough many
          refine List.mem_cons_of_mem _ (finishes (by omega) ?_)
          rw [next, List.length_cons] at many
          omega
        | waiting silent none_ =>
          obtain ⟨later, -⟩ := ih framed .finished
          refine ⟨later.silent rfl ⟨by simp, by simp⟩ (fun _ => rfl) silent, ?_⟩
          exact fun enough _ => by omega
    | @inside frame m later _ _ part open_ kept =>
      have first := framed _ List.mem_cons_self
      obtain ⟨reads, spends⟩ := @read_frame _ _ _ _ retry _ _ _ first script _ _ part open_ kept
      cases hr : read poll retry script held data with
      | mk result state =>
        rw [hr] at reads spends
        have faults_ := spends.faults
        have pieces_ := spends.pieces
        cases reads with
        | message rest =>
          obtain ⟨after, finishes⟩ := ih
            (fun f hf => framed f (List.mem_cons_of_mem _ hf))
            (positioned (fun f hf => framed f (List.mem_cons_of_mem _ hf)))
          refine ⟨after.message faults_, ?_⟩
          intro enough many
          refine List.mem_cons_of_mem _ (finishes ?_ ?_)
          · dsimp only at pieces_
            omega
          · rw [faults_] at many
            simp only [errors, List.filterMap_cons, List.filterMap_nil, List.nil_append,
              List.length_cons] at many
            omega
        | failed err rest part' open' kept' =>
          obtain ⟨after, finishes⟩ := ih framed (.inside part' open' kept')
          refine ⟨after.silent rfl ⟨by simp, by simp⟩ nofun faults_, ?_⟩
          intro enough many
          refine List.mem_cons_of_mem _ (finishes ?_ ?_)
          · dsimp only at pieces_
            omega
          · rw [faults_] at many
            simp only [errors, List.filterMap_cons, List.filterMap_nil, List.length_append,
              List.length_cons, List.length_nil] at many ⊢
            omega
        | waiting part' open' kept' =>
          obtain ⟨after, -⟩ := ih framed (.inside part' open' kept')
          refine ⟨after.silent rfl ⟨by simp, by simp⟩ nofun faults_, ?_⟩
          intro enough _
          simp only [pieces, List.countP_nil] at pieces_
          unfold pieces at enough
          omega

/-- An invariant of what is held, kept by every piece that is asked for. -/
def Holds (poll : List B → Poll M) (I : List B → Prop) : Prop :=
  ∀ held limit piece, I held → poll held = .want limit → piece ≠ [] → piece.length ≤ limit →
    I (held ++ piece)

/-- A message is what has been held at last, off the front of the data. -/
theorem read_message {I : List B → Prop} (holds : Holds poll I) (script : List (Event E)) :
    ∀ {held data : List B}, I held → ∀ {m : M} {left : List B × List B × List (Event E)},
      read poll retry script held data = (.message m, left) →
      ∃ frame, I frame ∧ poll frame = .done m ∧ held ++ data = frame ++ left.2.1 := by
  induction script with
  | nil =>
    intro held data kept m left h
    rw [read] at h
    cases next : poll held with
    | done m' =>
      rw [next] at h
      cases h
      exact ⟨held, kept, next, rfl⟩
    | invalid =>
      rw [next] at h
      cases h
    | want limit =>
      rw [next] at h
      cases h
  | cons event script ih =>
    intro held data kept m left h
    rw [read] at h
    cases next : poll held with
    | done m' =>
      rw [next] at h
      cases h
      exact ⟨held, kept, next, rfl⟩
    | invalid =>
      rw [next] at h
      cases h
    | want limit =>
      rw [next] at h
      cases event with
      | fail err =>
        by_cases again : retry err = true
        · simp only [again, if_true] at h
          exact ih kept h
        · simp only [again] at h
          cases h
      | piece spare =>
        simp only at h
        by_cases empty : data.take (min (spare + 1) limit) = []
        · rw [if_pos empty] at h
          by_cases between : held = []
          · rw [if_pos between] at h
            cases h
          · rw [if_neg between] at h
            cases h
        · rw [if_neg empty] at h
          have short : (data.take (min (spare + 1) limit)).length ≤ limit :=
            (List.length_take_le _ _).trans (min_le_right _ _)
          obtain ⟨frame, kept', done, same⟩ := ih (holds held limit _ kept next empty short) h
          refine ⟨frame, kept', done, ?_⟩
          rw [← same, List.append_assoc]
          congr 1
          have length : (data.take (min (spare + 1) limit)).length =
              min (min (spare + 1) limit) data.length := List.length_take
          rcases Nat.le_total (min (spare + 1) limit) data.length with fits | short
          · rw [length, Nat.min_eq_left fits, List.take_append_drop]
          · rw [length, Nat.min_eq_right short, List.drop_length, List.append_nil,
              List.take_of_length_le short]

/-- A call between frames ends only where the data does. -/
theorem read_ended {I : List B → Prop} (holds : Holds poll I)
    (asks : ∀ held limit, I held → poll held = .want limit → 0 < limit) (script : List (Event E)) :
    ∀ {held data : List B}, I held → ∀ {left : List B × List B × List (Event E)},
      read poll retry script held data = (.ended, left) → held = [] ∧ data = [] := by
  induction script with
  | nil =>
    intro held data kept left h
    rw [read] at h
    cases next : poll held <;> rw [next] at h <;> cases h
  | cons event script ih =>
    intro held data kept left h
    rw [read] at h
    cases next : poll held with
    | done m =>
      rw [next] at h
      cases h
    | invalid =>
      rw [next] at h
      cases h
    | want limit =>
      rw [next] at h
      cases event with
      | fail err =>
        by_cases again : retry err = true
        · simp only [again, if_true] at h
          exact ih kept h
        · simp only [again] at h
          cases h
      | piece spare =>
        simp only at h
        by_cases empty : data.take (min (spare + 1) limit) = []
        · rw [if_pos empty] at h
          by_cases between : held = []
          · refine ⟨between, ?_⟩
            have positive := asks held limit kept next
            rcases List.take_eq_nil_iff.mp empty with zero | none_
            · omega
            · exact none_
          · rw [if_neg between] at h
            cases h
        · rw [if_neg empty] at h
          have short : (data.take (min (spare + 1) limit)).length ≤ limit :=
            (List.length_take_le _ _).trans (min_le_right _ _)
          obtain ⟨none_, -⟩ := ih (holds held limit _ kept next empty short) h
          exact absurd (List.append_eq_nil_iff.mp none_).2 empty

/-- A source that does not fail and has pieces enough lets every call end. -/
theorem read_ends (script : List (Event E)) : ∀ {held data : List B},
    faults retry script = [] → data.length < pieces script →
      (read poll retry script held data).1 ≠ .waiting ∧
        ∀ err, (read poll retry script held data).1 ≠ .failed err := by
  induction script with
  | nil =>
    intro held data _ enough
    exact absurd enough (Nat.not_lt_zero _)
  | cons event script ih =>
    intro held data reliable enough
    rw [read]
    cases next : poll held with
    | done m => exact ⟨nofun, nofun⟩
    | invalid => exact ⟨nofun, nofun⟩
    | want limit =>
      cases event with
      | fail err =>
        by_cases again : retry err = true
        · simp only [again, if_true]
          refine ih ?_ ?_
          · simpa [faults, again] using reliable
          · simpa [pieces] using enough
        · simp [faults, again] at reliable
      | piece spare =>
        simp only
        by_cases empty : data.take (min (spare + 1) limit) = []
        · rw [if_pos empty]
          by_cases between : held = []
          · rw [if_pos between]
            exact ⟨nofun, nofun⟩
          · rw [if_neg between]
            exact ⟨nofun, nofun⟩
        · rw [if_neg empty]
          have moved := List.length_pos_iff.mpr empty
          have within := (List.take_sublist (min (spare + 1) limit) data).length_le
          refine ih ?_ ?_
          · simpa [faults] using reliable
          · simp only [pieces, List.countP_cons, if_true] at enough
            unfold pieces
            rw [List.length_drop]
            omega

/-- A decoder that is never done with what it holds returns no message. -/
theorem read_stuck {all : List B} (stuck : ∀ held, held <+: all → ∀ m, poll held ≠ .done m)
    (script : List (Event E)) : ∀ {held data : List B}, held ++ data = all →
      messages [(read poll retry script held data).1] = [] ∧
        (read poll retry script held data).2.1 ++ (read poll retry script held data).2.2.1 =
          all := by
  induction script with
  | nil =>
    intro held data kept
    have open_ := stuck held ⟨data, kept⟩
    rw [read]
    cases next : poll held with
    | done m => exact absurd next (open_ m)
    | invalid => exact ⟨rfl, kept⟩
    | want limit => exact ⟨rfl, kept⟩
  | cons event script ih =>
    intro held data kept
    have open_ := stuck held ⟨data, kept⟩
    rw [read]
    cases next : poll held with
    | done m => exact absurd next (open_ m)
    | invalid => exact ⟨rfl, kept⟩
    | want limit =>
      cases event with
      | fail err =>
        by_cases again : retry err = true
        · simp only [again, if_true]
          exact ih kept
        · simp only [again]
          exact ⟨rfl, kept⟩
      | piece spare =>
        by_cases empty : data.take (min (spare + 1) limit) = []
        · simp only [empty, if_true]
          by_cases between : held = []
          · simp only [between, if_true]
            exact ⟨rfl, between ▸ kept⟩
          · simp only [between, if_false]
            exact ⟨rfl, kept⟩
        · simp only [empty, if_false]
          apply ih
          rw [← kept, List.append_assoc]
          congr 1
          rw [List.length_take]
          conv_rhs => rw [← List.take_append_drop (min (spare + 1) limit) data]
          congr 1
          rcases Nat.le_total (min (spare + 1) limit) data.length with short | long
          · rw [Nat.min_eq_left short]
          · rw [Nat.min_eq_right long, List.drop_eq_nil_of_le long, List.drop_length]

theorem calls_stuck {all : List B} (stuck : ∀ held, held <+: all → ∀ m, poll held ≠ .done m)
    (n : Nat) : ∀ {script : List (Event E)} {held data : List B}, held ++ data = all →
      messages (calls poll retry n script held data).1 = [] := by
  induction n with
  | zero => exact fun _ => rfl
  | succ n ih =>
    intro script held data kept
    obtain ⟨silent, kept'⟩ := @read_stuck _ _ _ _ retry _ stuck script _ _ kept
    have later := @ih (read poll retry script held data).2.2.2 _ _ kept'
    rw [calls]
    change messages ([_] ++ _) = []
    rw [messages, List.filterMap_append]
    exact List.append_eq_nil_iff.mpr ⟨silent, later⟩

end Framing
