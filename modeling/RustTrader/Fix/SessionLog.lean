import RustTrader.Fix.Wire
import RustTrader.Library.Disk

/-!
# Session logs

The daily files of `fix/log.rs`: a log of messages and one of events for each session,
opened in the directory of the day and removed when they are too old. The clock, what the
device lets through and the order in which it lists directories are arguments; one call
is one step.
-/

namespace RustTrader.Fix

def safeFilenameComponent (value : String) : String :=
  let component := String.ofList (value.toList.map fun character =>
    if character.isAlphanum ∨ character ∈ ['-', '_', '.'] then character else '_')
  if component = "" ∨ component = "." ∨ component = ".." then "_" else component

def filenamePrefix (beginString sender target : String) : String :=
  safeFilenameComponent beginString ++ "-" ++ safeFilenameComponent sender ++ "-" ++
    safeFilenameComponent target

/-- A day, and the name of a file in its directory. -/
abbrev LogPath := Int × String

abbrev LogDisk := Disk LogPath UInt8

/-- The file of the messages or of the events. -/
def logName (session : String) (event : Bool) : String :=
  session ++ "." ++ (if event then "event" else "messages") ++ ".log"

/-- How far the device lets an operation go: the files it opens before it fails, the days
whose directories it lists, the files it removes before it fails, the bytes it takes. -/
structure Device where
  opens : Nat
  listed : List Int
  removes : Nat
  writes : Nat

/-- `session` is the `prefix` of the names. -/
structure DailyFiles where
  session : String
  date : Int
  retentionDays : Nat
  messages : Nat
  event : Nat

def openFiles (device : Device) (disk : LogDisk) (session : String) (date : Int) :
    Option (Nat × Nat) × LogDisk :=
  if device.opens = 0 then (none, disk)
  else
    let (messages, disk) := disk.openFile (date, logName session false)
    if device.opens = 1 then (none, disk)
    else
      let (event, disk) := disk.openFile (date, logName session true)
      (some (messages, event), disk)

/-- Whether the directory of `date` is too old on `today`. -/
def tooOld (today : Int) (days : Nat) (date : Int) : Bool :=
  let age := today - date
  !(age < 0 || age.toNat < days)

/-- The files to be removed, in order. -/
def prunable (listed : List Int) (session : String) (today : Int) (days : Nat) : List LogPath :=
  (listed.filter (tooOld today days)).flatMap fun date =>
    [(date, logName session false), (date, logName session true)]

def pruneSessionLogs (device : Device) (disk : LogDisk) (session : String) (today : Int)
    (days : Nat) : LogDisk :=
  if days = 0 then disk
  else ((prunable device.listed session today days).take device.removes).foldl Disk.unlink disk

namespace DailyFiles

def prune (device : Device) (disk : LogDisk) (files : DailyFiles) : LogDisk :=
  pruneSessionLogs device disk files.session files.date files.retentionDays

/-- `open`. -/
def opened (device : Device) (disk : LogDisk) (session : String) (date : Int)
    (retentionDays : Nat) : Option DailyFiles × LogDisk :=
  match openFiles device disk session date with
  | (none, disk) => (none, disk)
  | (some (messages, event), disk) =>
    let files : DailyFiles := ⟨session, date, retentionDays, messages, event⟩
    (some files, files.prune device disk)

/-- Both files of the new day are opened before the log switches to them. -/
def rotate (device : Device) (disk : LogDisk) (files : DailyFiles) (date : Int) :
    Option DailyFiles × LogDisk :=
  if files.date = date then (some files, disk)
  else match openFiles device disk files.session date with
    | (none, disk) => (none, disk)
    | (some (messages, event), disk) =>
      let files := { files with messages := messages, event := event, date := date }
      (some files, files.prune device disk)

end DailyFiles

/-- A line of a log. -/
def logLine (stamp raw : List UInt8) : List UInt8 :=
  stamp ++ wireBytes ": " ++ raw ++ wireBytes "\n"

/-- A disabled log is `none`. The source only warns of a failure. -/
def writeRecord (device : Device) (disk : LogDisk) (log : Option DailyFiles) (event : Bool)
    (stamp raw : List UInt8) (date : Int) : Option DailyFiles × LogDisk :=
  match log with
  | none => (none, disk)
  | some files =>
    match files.rotate device disk date with
    | (none, disk) => (some files, disk)
    | (some files, disk) =>
      (some files, disk.append (if event then files.event else files.messages)
        ((logLine stamp raw).take device.writes))

/-- Session logs over one directory. `opened` has the session and the retention of every log
that was asked for, and `journal` what was written where. -/
structure Archive where
  disk : LogDisk
  logs : Nat → Option DailyFiles
  today : Int
  opened : List (String × Nat)
  journal : List (LogPath × List UInt8)

namespace Archive

/-- Nothing is open yet; the directory may hold files. -/
def idle (disk : LogDisk) (today : Int) : Archive := ⟨disk, fun _ => none, today, [], []⟩

def start (s : Archive) (device : Device) (connection : Nat) (session : String) (days : Nat)
    (date : Int) : Archive :=
  let result := DailyFiles.opened device s.disk session date days
  { s with
    disk := result.2
    logs := Function.update s.logs connection result.1
    opened := s.opened ++ [(session, days)] }

def write (s : Archive) (device : Device) (connection : Nat) (event : Bool)
    (stamp raw : List UInt8) (date : Int) : Archive :=
  let result := writeRecord device s.disk (s.logs connection) event stamp raw date
  { s with
    disk := result.2
    logs := Function.update s.logs connection result.1
    journal := s.journal ++ (s.logs connection).toList.flatMap fun files =>
      (files.rotate device s.disk date).1.toList.map fun files =>
        ((date, logName files.session event), (logLine stamp raw).take device.writes) }

/-- One step of a connection or of the clock, which never goes back. A connection may
have read its date before it got to the files. -/
inductive Move (s : Archive) : Archive → Prop where
  | start (device : Device) (connection : Nat) (beginString sender target : String) (days : Nat)
      {date : Int} (free : s.logs connection = none) (past : date ≤ s.today) : Move s
        (s.start device connection (filenamePrefix beginString sender target) days date)
  | write (device : Device) (connection : Nat) (event : Bool) (stamp raw : List UInt8)
      {date : Int} (past : date ≤ s.today) :
      Move s (s.write device connection event stamp raw date)
  | close (connection : Nat) :
      Move s { s with logs := Function.update s.logs connection none }
  | wait (today : Int) (later : s.today ≤ today) : Move s { s with today := today }

/-- No log there was may remove the file yet, if it is one of its own. -/
def Spared (s : Archive) (path : LogPath) : Prop := ∀ log ∈ s.opened, log.2 ≠ 0 →
  (∃ event, path.2 = logName log.1 event) → s.today < path.1 + log.2

/-- What was in a file at first, and what has been written to it. -/
def expected (disk : LogDisk) (s : Archive) (path : LogPath) : List UInt8 :=
  (disk.read path).getD [] ++ (s.journal.filter fun entry => entry.1 = path).flatMap Prod.snd

end Archive

theorem tooOld_iff {today date : Int} {days : Nat} :
    tooOld today days date = true ↔ date + days ≤ today := by
  unfold tooOld
  dsimp only
  rw [Bool.not_eq_true', Bool.or_eq_false_iff, decide_eq_false_iff_not, decide_eq_false_iff_not]
  omega

/-- A log may remove the file: it is one of its own and too old. -/
def Gone (session : String) (today : Int) (days : Nat) (path : LogPath) : Prop :=
  days ≠ 0 ∧ (∃ event, path.2 = logName session event) ∧ path.1 + days ≤ today

theorem not_gone {session : String} {today : Int} {days : Nat} {path : LogPath}
    (young : today ≤ path.1) : ¬ Gone session today days path := by
  rintro ⟨positive, -, old⟩
  omega

theorem mem_prunable {listed : List Int} {session : String} {today : Int} {days : Nat}
    {path : LogPath} : path ∈ prunable listed session today days ↔
      path.1 ∈ listed ∧ path.1 + days ≤ today ∧ ∃ event, path.2 = logName session event := by
  unfold prunable
  rw [List.mem_flatMap]
  constructor
  · rintro ⟨date, mem, own⟩
    obtain ⟨listed, old⟩ := List.mem_filter.mp mem
    simp only [List.mem_cons, List.not_mem_nil, or_false] at own
    rcases own with rfl | rfl
    · exact ⟨listed, tooOld_iff.mp old, false, rfl⟩
    · exact ⟨listed, tooOld_iff.mp old, true, rfl⟩
  · rintro ⟨listed, old, event, own⟩
    refine ⟨path.1, List.mem_filter.mpr ⟨listed, tooOld_iff.mpr old⟩, ?_⟩
    obtain ⟨date, name⟩ := path
    obtain rfl : name = logName session event := own
    cases event <;> simp

theorem prune_sheds (device : Device) (disk : LogDisk) (session : String) (today : Int)
    (days : Nat) : Disk.Sheds (Gone session today days) disk
      (pruneSessionLogs device disk session today days) := by
  unfold pruneSessionLogs
  split
  · exact .refl disk
  · rename_i positive
    refine Disk.unlinkAll_sheds (fun path mem => ?_) disk
    obtain ⟨-, old, own⟩ := mem_prunable.mp (List.mem_of_mem_take mem)
    exact ⟨positive, own, old⟩

theorem openFiles_grows (device : Device) (disk : LogDisk) (session : String) (date : Int) :
    Disk.Grows (fun path : LogPath => path.1 = date) disk
      (openFiles device disk session date).2 := by
  have one : ∀ (event : Bool) (disk : LogDisk), Disk.Grows (fun path => path.1 = date) disk
      (disk.openFile (date, logName session event)).2 :=
    fun event disk => @Disk.openFile_grows _ UInt8 _ (fun path => path.1 = date)
      (date, logName session event) rfl disk
  unfold openFiles
  split
  · exact .refl disk
  · dsimp only
    split
    · exact one false disk
    · exact (one false disk).trans (one true _)

/-- A log writes to the files of its day, which are under their names while these are
`safe`. -/
def DailyFiles.Serves (safe : LogPath → Prop) (files : DailyFiles) (disk : LogDisk) : Prop :=
  ∀ event, Disk.Handle disk (files.date, logName files.session event)
      (if event then files.event else files.messages) ∧
    (safe (files.date, logName files.session event) →
      disk.fileOf (files.date, logName files.session event) =
        some (if event then files.event else files.messages))

namespace DailyFiles.Serves

variable {safe safe' : LogPath → Prop} {files : DailyFiles} {disk disk' : LogDisk}

theorem mono (h : files.Serves safe disk) (fewer : ∀ path, safe' path → safe path) :
    files.Serves safe' disk :=
  fun event => ⟨(h event).1, fun own => (h event).2 (fewer _ own)⟩

theorem changed {fresh expired : LogPath → Prop} {mid : LogDisk} (h : files.Serves safe disk)
    (grown : Disk.Grows fresh disk mid) (shed : Disk.Sheds expired mid disk')
    (young : ∀ path, safe path → ¬ expired path) : files.Serves safe disk' := by
  intro event
  obtain ⟨handle, named⟩ := h event
  refine ⟨(handle.grown grown).shed shed, fun own => ?_⟩
  rw [shed.named _ (young _ own)]
  exact grown.named _ _ (named own)

theorem append (h : files.Serves safe disk) (file : Nat) (bytes : List UInt8) :
    files.Serves safe (disk.append file bytes) :=
  fun event => ⟨(h event).1.append file bytes, (h event).2⟩

end DailyFiles.Serves

theorem openFiles_serves {device : Device} {disk disk' : LogDisk} {session : String} {date : Int}
    {messages event : Nat} (safe : LogPath → Prop) (days : Nat) (wf : disk'.WF)
    (h : openFiles device disk session date = (some (messages, event), disk')) :
    DailyFiles.Serves safe ⟨session, date, days, messages, event⟩ disk' := by
  suffices named : ∀ kind, disk'.fileOf (date, logName session kind) =
      some (if kind then event else messages) from
    fun kind => ⟨.of_named wf (named kind), fun _ => named kind⟩
  unfold openFiles at h
  split at h
  · cases h
  · dsimp only at h
    split at h
    · cases h
    · cases h
      rintro (_ | _)
      · have first := Disk.openFile_named disk (date, logName session false)
        have second := @Disk.openFile_grows _ UInt8 _ (fun _ => True) (date, logName session true)
          trivial (disk.openFile (date, logName session false)).2
        exact second.named _ _ first
      · exact Disk.openFile_named _ _

theorem DailyFiles.Serves.pruned {safe : LogPath → Prop} {files : DailyFiles} {disk : LogDisk}
    (h : files.Serves safe disk) (device : Device) :
    files.Serves safe (files.prune device disk) := by
  have sheds := prune_sheds device disk files.session files.date files.retentionDays
  intro event
  obtain ⟨handle, named⟩ := h event
  refine ⟨handle.shed sheds, fun own => ?_⟩
  exact (sheds.named _ (not_gone (le_refl files.date))).trans (named own)

/-- The log that an operation leaves, and what it has done to the directory: files of the day
were created, and then old ones of the log removed. -/
structure Switched (safe : LogPath → Prop) (session : String) (date : Int) (days : Nat)
    (disk : LogDisk) (result : Option DailyFiles × LogDisk) : Prop where
  changed : ∃ mid, Disk.Grows (fun path : LogPath => path.1 = date) disk mid ∧
    Disk.Sheds (Gone session date days) mid result.2
  log : ∀ files, result.1 = some files → files.session = session ∧
    files.retentionDays = days ∧ files.date = date ∧ files.Serves safe result.2

theorem DailyFiles.opened_switched (safe : LogPath → Prop) (device : Device) {disk : LogDisk}
    (wf : disk.WF) (session : String) (date : Int) (days : Nat) :
    Switched safe session date days disk (opened device disk session date days) := by
  unfold opened
  have grown := openFiles_grows device disk session date
  cases h : openFiles device disk session date with
  | mk pair disk' =>
    rw [h] at grown
    cases pair with
    | none => exact ⟨⟨disk', grown, .refl disk'⟩, by rintro _ ⟨⟩⟩
    | some pair =>
      refine ⟨⟨disk', grown, prune_sheds _ _ _ _ _⟩, ?_⟩
      rintro _ ⟨⟩
      exact ⟨rfl, rfl, rfl, (openFiles_serves safe days (grown.wf wf) h).pruned device⟩

theorem DailyFiles.rotate_switched {safe : LogPath → Prop} (device : Device) {disk : LogDisk}
    (wf : disk.WF) {files : DailyFiles} (serves : files.Serves safe disk) (date : Int) :
    Switched safe files.session date files.retentionDays disk (files.rotate device disk date) := by
  unfold rotate
  split
  · rename_i same
    refine ⟨⟨disk, .refl disk, .refl disk⟩, ?_⟩
    rintro _ ⟨⟩
    exact ⟨rfl, rfl, same, serves⟩
  · have grown := openFiles_grows device disk files.session date
    cases h : openFiles device disk files.session date with
    | mk pair disk' =>
      rw [h] at grown
      cases pair with
      | none => exact ⟨⟨disk', grown, .refl disk'⟩, by rintro _ ⟨⟩⟩
      | some pair =>
        refine ⟨⟨disk', grown, prune_sheds _ _ _ _ _⟩, ?_⟩
        rintro _ ⟨⟩
        exact ⟨rfl, rfl, rfl,
          (openFiles_serves safe files.retentionDays (grown.wf wf) h).pruned device⟩

namespace Archive

theorem Spared.earlier {s s' : Archive} {path : LogPath} (h : s'.Spared path)
    (opened : s.opened ⊆ s'.opened) (later : s.today ≤ s'.today) : s.Spared path :=
  fun log mem positive own => lt_of_le_of_lt later (h log (opened mem) positive own)

/-- No log that there was may have removed a file that is spared. -/
theorem Spared.young {s : Archive} {path : LogPath} (h : s.Spared path) {session : String}
    {date : Int} {days : Nat} (known : (session, days) ∈ s.opened) (past : date ≤ s.today) :
    ¬ Gone session date days path := by
  rintro ⟨positive, own, old⟩
  have later := h (session, days) known positive own
  omega

/-- The files that are spared hold all that was written to them. -/
structure Kept (disk : LogDisk) (s : Archive) : Prop where
  wf : s.disk.WF
  whole : ∀ path, s.Spared path → ∀ content, s.disk.read path = some content →
    content = s.expected disk path
  spared : ∀ path, s.Spared path → s.disk.read path = none →
    disk.read path = none ∧ ∀ entry ∈ s.journal, entry.1 ≠ path
  logs : ∀ connection files, s.logs connection = some files →
    (files.session, files.retentionDays) ∈ s.opened ∧ files.Serves s.Spared s.disk

namespace Kept

variable {disk : LogDisk} {s : Archive}

/-- A file that is missing although nobody may have removed it never was there. -/
theorem untouched (h : Kept disk s) {path : LogPath} (spared : s.Spared path)
    (missing : s.disk.read path = none) : s.expected disk path = [] := by
  obtain ⟨absent, unwritten⟩ := h.spared path spared missing
  unfold expected
  rw [absent, List.filter_eq_nil_iff.mpr]
  · rfl
  · intro entry mem
    simpa using unwritten entry mem

theorem switch (h : Kept disk s) {session : String} {date : Int} {days : Nat}
    {result : Option DailyFiles × LogDisk} (past : date ≤ s.today)
    (switched : Switched s.Spared session date days s.disk result)
    (known : (session, days) ∈ s.opened) : Kept disk { s with disk := result.2 } := by
  obtain ⟨mid, grown, shed⟩ := switched.changed
  refine ⟨shed.wf (grown.wf h.wf), ?_, ?_, ?_⟩
  · intro path spared content read
    rcases shed.read path with same | ⟨-, gone⟩
    · rw [same] at read
      rcases grown.read h.wf path with same' | ⟨-, absent, created⟩
      · exact h.whole path spared content (same'.symm.trans read)
      · obtain rfl := Option.some.inj (created.symm.trans read)
        exact (h.untouched spared absent).symm
    · cases gone.symm.trans read
  · intro path spared missing
    rcases shed.read path with same | ⟨gone, -⟩
    · rw [same] at missing
      rcases grown.read h.wf path with same' | ⟨-, -, created⟩
      · exact h.spared path spared (same'.symm.trans missing)
      · cases created.symm.trans missing
    · exact absurd gone (Spared.young spared known past)
  · intro connection files opened
    obtain ⟨listed, serves⟩ := h.logs connection files opened
    exact ⟨listed, serves.changed grown shed fun path spared => spared.young known past⟩

theorem setLog (h : Kept disk s) (connection : Nat) (log : Option DailyFiles)
    (fine : ∀ files, log = some files →
      (files.session, files.retentionDays) ∈ s.opened ∧ files.Serves s.Spared s.disk) :
    Kept disk { s with logs := Function.update s.logs connection log } := by
  refine { h with logs := ?_ }
  intro other files opened
  by_cases same : other = connection
  · subst same
    exact fine files (by simpa using opened)
  · exact h.logs other files (by simpa [same] using opened)

theorem wrote (h : Kept disk s) {path : LogPath} {file : Nat}
    (handle : Disk.Handle s.disk path file)
    (named : s.Spared path → s.disk.fileOf path = some file) (bytes : List UInt8) :
    Kept disk { s with
      disk := s.disk.append file bytes
      journal := s.journal ++ [(path, bytes)] } := by
  have apart : ∀ other, s.Spared other → s.disk.fileOf other ≠ some file → path ≠ other := by
    rintro other spared unnamed rfl
    exact unnamed (named spared)
  refine ⟨Disk.append_wf h.wf _ _, ?_, ?_, ?_⟩
  · intro other spared content here
    change (s.disk.append file bytes).read other = _ at here
    rw [Disk.append_read] at here
    unfold expected
    rw [List.filter_append, List.flatMap_append, ← List.append_assoc]
    split at here
    · rename_i own
      obtain rfl := handle.own other own
      cases here
      rw [h.whole other spared _ (Disk.read_of own)]
      simp [expected]
    · rename_i unnamed
      rw [h.whole other spared content here]
      simp [expected, apart other spared unnamed]
  · intro other spared missing
    change (s.disk.append file bytes).read other = _ at missing
    rw [Disk.append_read] at missing
    split at missing
    · cases missing
    · rename_i unnamed
      obtain ⟨absent, unwritten⟩ := h.spared other spared missing
      refine ⟨absent, fun entry mem => ?_⟩
      rcases List.mem_append.mp mem with earlier | last
      · exact unwritten entry earlier
      · rw [List.mem_singleton.mp last]
        exact apart other spared unnamed
  · intro connection files opened
    obtain ⟨listed, serves⟩ := h.logs connection files opened
    exact ⟨listed, serves.append file bytes⟩

/-- With fewer files spared there is less to keep. -/
theorem fewer (h : Kept disk s) {opened : List (String × Nat)} {today : Int}
    (more : s.opened ⊆ opened) (later : s.today ≤ today) :
    Kept disk { s with opened := opened, today := today } := by
  have spared : ∀ path, Spared { s with opened := opened, today := today } path →
      s.Spared path := fun path spared => spared.earlier more later
  refine ⟨h.wf, fun path own => h.whole path (spared path own), fun path own => h.spared path
    (spared path own), fun connection files opened => ?_⟩
  obtain ⟨listed, serves⟩ := h.logs connection files opened
  exact ⟨more listed, serves.mono spared⟩

theorem started (h : Kept disk s) (device : Device) (connection : Nat) (session : String)
    (days : Nat) {date : Int} (past : date ≤ s.today) :
    Kept disk (s.start device connection session days date) := by
  have named := h.fewer (List.subset_append_left s.opened [(session, days)]) (le_refl s.today)
  have known : (session, days) ∈ s.opened ++ [(session, days)] := List.mem_append_right _ (by simp)
  have switched := DailyFiles.opened_switched
    (Spared { s with opened := s.opened ++ [(session, days)], today := s.today })
    device h.wf session date days
  refine (named.switch past switched known).setLog connection _ fun files opened => ?_
  obtain ⟨own, retention, -, serves⟩ := switched.log files opened
  refine ⟨?_, serves⟩
  rw [own, retention]
  exact known

theorem written (h : Kept disk s) (device : Device) (connection : Nat) (event : Bool)
    (stamp raw : List UInt8) {date : Int} (past : date ≤ s.today) :
    Kept disk (s.write device connection event stamp raw date) := by
  unfold write
  cases opened : s.logs connection with
  | none =>
    have same : Function.update s.logs connection none = s.logs := by
      rw [← opened, Function.update_eq_self]
    simp only [writeRecord, Option.toList_none, List.flatMap_nil, List.append_nil]
    rw [same]
    exact h
  | some files =>
    obtain ⟨listed, serves⟩ := h.logs connection files opened
    have switched := DailyFiles.rotate_switched device h.wf serves date
    have kept := h.switch past switched listed
    cases rotated : files.rotate device s.disk date with
    | mk log disk' =>
      rw [rotated] at switched kept
      cases log with
      | none =>
        have same : Function.update s.logs connection (some files) = s.logs := by
          rw [← opened, Function.update_eq_self]
        simp only [writeRecord, rotated, Option.toList_some, Option.toList_none,
          List.flatMap_singleton, List.map_nil, List.append_nil]
        rw [same]
        exact kept
      | some files' =>
        obtain ⟨own, retention, rfl, serves'⟩ := switched.log files' rfl
        have held := kept.setLog connection (some files') (by
          rintro _ ⟨⟩
          exact ⟨own ▸ retention ▸ listed, serves'⟩)
        simp only [writeRecord, rotated, Option.toList_some, List.flatMap_singleton,
          List.map_singleton]
        exact held.wrote (serves' event).1 (serves' event).2 _

theorem move (h : Kept disk s) {s' : Archive} (move : Move s s') : Kept disk s' := by
  cases move with
  | start device connection beginString sender target days free past =>
    exact h.started device connection _ days past
  | write device connection event stamp raw past =>
    exact h.written device connection event stamp raw past
  | close connection => exact h.setLog connection none (by rintro _ ⟨⟩)
  | wait today later => exact h.fewer (List.Subset.refl _) later

theorem idle {today : Int} (wf : disk.WF) : Kept disk (Archive.idle disk today) := by
  refine ⟨wf, ?_, ?_, by rintro _ _ ⟨⟩⟩
  · intro path _ content read
    change disk.read path = some content at read
    unfold expected
    rw [read]
    exact (List.append_nil content).symm
  · intro path _ missing
    exact ⟨missing, List.forall_mem_nil _⟩

end Kept

end Archive

end RustTrader.Fix
