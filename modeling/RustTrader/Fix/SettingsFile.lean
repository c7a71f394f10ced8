import Mathlib.Data.List.DropRight
import Mathlib.Data.List.TakeWhile
import RustTrader.Fix.Settings

/-!
# What a settings file says

The loop over the lines of a settings file is compared with a reading of the file
as a list of settings, each with the section it stands in. A session sees what is
written in its own block, and else what is written in the defaults, wherever these
stand.
-/

namespace RustTrader.Fix

inductive Entry where
  | default
  | session
  | setting (key value : String)
  deriving DecidableEq

/-- A line is a header, or a known key and its value on both sides of the first `=`. -/
inductive Says (line : List Char) : Entry → Prop
  | default (header : trim line = "[DEFAULT]".toList) : Says line .default
  | session (header : trim line = "[SESSION]".toList) : Says line .session
  | setting {before after : List Char} (split : trim line = before ++ '=' :: after)
      (first : '=' ∉ before) (known : String.ofList (trim before) ∈ knownKeys)
      (filled : trim after ≠ []) :
      Says line (.setting (String.ofList (trim before)) (String.ofList (trim after)))

/-- A setting and the section it stands in. -/
structure Setting where
  place : Section
  key : String
  value : String
  deriving DecidableEq

namespace Setting

def slot (setting : Setting) : Section × String := (setting.place, setting.key)

/-- The settings of a file from some point on: sessions are numbered as they come. -/
def placedFrom : Section → Nat → List Entry → List Setting
  | _, _, [] => []
  | _, sessions, .default :: entries => placedFrom .default sessions entries
  | _, sessions, .session :: entries => placedFrom (.session sessions) (sessions + 1) entries
  | place, sessions, .setting key value :: entries =>
    ⟨place, key, value⟩ :: placedFrom place sessions entries

end Setting

def placed (entries : List Entry) : List Setting := Setting.placedFrom .none 0 entries

/-- A file says some entries: each setting stands in a section, and none is given twice there. -/
structure Reading (text : String) (entries : List Entry) : Prop where
  lines : List.Forall₂ Says (InstrumentMap.listing text) entries
  within : ∀ setting ∈ placed entries, setting.place ≠ .none
  once : ((placed entries).map Setting.slot).Nodup

theorem splitFirst_eq_some {sep : Char} {line before after : List Char} :
    splitFirst sep line = some (before, after) ↔ line = before ++ sep :: after ∧ sep ∉ before := by
  unfold splitFirst
  constructor
  · intro h
    split at h
    · cases h
    · rename_i c rest dropped
      obtain ⟨rfl, rfl⟩ := Prod.mk.inj (Option.some.inj h)
      have same : c = sep := by
        have stop := List.head?_dropWhile_not (fun c => c != sep) line
        rw [dropped] at stop
        simpa using stop
      constructor
      · rw [← same, ← dropped, same, List.takeWhile_append_dropWhile]
      · intro mem
        simpa using List.mem_takeWhile_imp mem
  · rintro ⟨rfl, absent⟩
    have before_ : ∀ c ∈ before, (c != sep) = true := by
      intro c mem
      rw [bne_iff_ne]
      rintro rfl
      exact absent mem
    rw [List.dropWhile_append_of_pos before_, List.takeWhile_append_of_pos before_]
    simp

/-- A text that starts with no white space is trimmed behind its first character only. -/
theorem trim_head {c : Char} {rest : List Char} (graphic : whiteSpace c = false) :
    (trim (c :: rest)).head? = some c := by
  have kept : trim (c :: rest) = List.rdropWhile whiteSpace (c :: rest) := by
    unfold trim
    rw [List.dropWhile_cons_of_neg (by simp [graphic])]
    rfl
  obtain ⟨tail, same⟩ := List.rdropWhile_prefix whiteSpace (l := c :: rest)
  rw [kept]
  cases front : List.rdropWhile whiteSpace (c :: rest) with
  | nil =>
    have white := List.rdropWhile_eq_nil_iff.mp front c List.mem_cons_self
    rw [graphic] at white
    cases white
  | cons d ds =>
    rw [front] at same
    rw [List.head?_cons, (List.cons.inj same).1]

/-- What is left of a text starts with no white space. -/
theorem head_trim {line : List Char} {c : Char} {rest : List Char} (h : trim line = c :: rest) :
    whiteSpace c = false := by
  obtain ⟨tail, same⟩ := List.rdropWhile_prefix whiteSpace (l := line.dropWhile whiteSpace)
  have left := List.head?_dropWhile_not whiteSpace line
  have front : line.dropWhile whiteSpace = c :: (rest ++ tail) := by
    rw [← same]
    change trim line ++ tail = _
    rw [h]
    rfl
  rw [front] at left
  simpa using left

theorem knownKeys_letter : ∀ key ∈ knownKeys, ∀ c ∈ key.toList.head?, c ≠ '[' := by
  simp [knownKeys]

/-- A setting is no header. -/
theorem setting_head {line before after : List Char} (split : trim line = before ++ '=' :: after)
    (known : String.ofList (trim before) ∈ knownKeys) : ¬ ['['] <+: trim line := by
  rintro ⟨rest, header⟩
  have first : before.head? = some '[' := by
    cases before with
    | nil => exact absurd known (by decide +kernel)
    | cons c before =>
      rw [split] at header
      rw [List.head?_cons, (List.cons.inj header).1]
  cases before with
  | nil => cases first
  | cons c before =>
    obtain rfl := Option.some.inj first
    have front : (trim ('[' :: before)).head? = some '[' := trim_head (head_trim split)
    refine knownKeys_letter _ known '[' ?_ rfl
    rw [String.toList_ofList]
    exact front

theorem Says.unique {line : List Char} {entry entry' : Entry} (h : Says line entry)
    (h' : Says line entry') : entry = entry' := by
  have plain : ∀ {header : List Char} {before after : List Char}, '=' ∉ header →
      trim line = header → trim line = before ++ '=' :: after → False := by
    intro header before after absent same split
    rw [← same, split] at absent
    exact absent (by simp)
  cases h with
  | default header =>
    cases h' with
    | default => rfl
    | session header' => exact absurd (header.symm.trans header') (by decide)
    | setting split => exact (plain (by decide) header split).elim
  | session header =>
    cases h' with
    | default header' => exact absurd (header.symm.trans header') (by decide)
    | session => rfl
    | setting split => exact (plain (by decide) header split).elim
  | setting split first =>
    cases h' with
    | default header => exact (plain (by decide) header split).elim
    | session header => exact (plain (by decide) header split).elim
    | setting split' first' =>
      have one := splitFirst_eq_some.mpr ⟨split, first⟩
      rw [splitFirst_eq_some.mpr ⟨split', first'⟩] at one
      cases one
      rfl

theorem Reading.unique {text : String} {entries entries' : List Entry} (h : Reading text entries)
    (h' : Reading text entries') : entries = entries' := by
  have same : ∀ (lines : List (List Char)) (l l' : List Entry), List.Forall₂ Says lines l →
      List.Forall₂ Says lines l' → l = l' := by
    intro lines
    induction lines with
    | nil =>
      rintro l l' ⟨⟩ ⟨⟩
      rfl
    | cons line lines ih =>
      rintro l l' ⟨⟩ ⟨⟩
      rename_i here rest _ _ here' rest'
      rw [here.unique here', ih _ _ rest rest']
  exact same _ _ _ h.lines h'.lines

namespace Loader

def enter (loader : Loader) : Entry → Loader
  | .default => loader.enterDefault
  | .session => loader.enterSession
  | .setting key value => loader.insert key value

/-- What the next line may say. -/
def Admits (loader : Loader) : Entry → Prop
  | .setting key _ => loader.place ≠ .none ∧ loader.config.written loader.place key = none
  | _ => True

theorem loadHeader_ok {loader loader' : Loader} {number : Nat} {line : List Char} :
    loader.loadHeader number line = .ok loader' ↔
      (line = "[DEFAULT]".toList ∧ loader' = loader.enterDefault) ∨
      (line = "[SESSION]".toList ∧ loader' = loader.enterSession) := by
  unfold loadHeader
  constructor
  · intro h
    split at h
    · cases h
    · split at h
      · rename_i header
        exact .inl ⟨header, (Except.ok.inj h).symm⟩
      · split at h
        · rename_i header
          exact .inr ⟨header, (Except.ok.inj h).symm⟩
        · cases h
  · rintro (⟨rfl, rfl⟩ | ⟨rfl, rfl⟩)
    · rw [if_neg (by decide), if_pos rfl]
    · rw [if_neg (by decide), if_neg (by decide), if_pos rfl]

theorem loadSetting_ok {loader loader' : Loader} {number : Nat} {line : List Char} :
    loader.loadSetting number line = .ok loader' ↔
      ∃ before after, line = before ++ '=' :: after ∧ '=' ∉ before ∧
        String.ofList (trim before) ∈ knownKeys ∧ trim after ≠ [] ∧
        loader.Admits (.setting (String.ofList (trim before)) (String.ofList (trim after))) ∧
        loader' = loader.insert (String.ofList (trim before)) (String.ofList (trim after)) := by
  have empty : ∀ {l : List Char}, String.ofList l = "" ↔ l = [] := by
    intro l
    rw [← String.toList_inj, String.toList_ofList]
    rfl
  unfold loadSetting
  constructor
  · intro h
    split at h
    · cases h
    rename_i before after split_
    obtain ⟨rfl, first⟩ := splitFirst_eq_some.mp split_
    dsimp only at h
    split at h
    · cases h
    split at h
    · cases h
    rename_i filled
    split at h
    · cases h
    rename_i known
    split at h
    · cases h
    rename_i inside
    split at h
    · cases h
    rename_i fresh
    rw [Bool.not_eq_true, Option.isSome_eq_false_iff, Option.isNone_iff_eq_none] at fresh
    exact ⟨before, after, rfl, first, not_not.mp known, fun h => filled (empty.mpr h),
      ⟨inside, fresh⟩, (Except.ok.inj h).symm⟩
  · rintro ⟨before, after, rfl, first, known, filled, ⟨inside, fresh⟩, rfl⟩
    rw [splitFirst_eq_some.mpr ⟨rfl, first⟩]
    have named : String.ofList (trim before) ≠ "" := by
      intro h
      rw [h] at known
      exact absurd known (by decide)
    dsimp only
    rw [if_neg named, if_neg (fun h => filled (empty.mp h)), if_neg (not_not.mpr known),
      if_neg inside, fresh, Option.isSome_none, if_neg Bool.false_ne_true]

theorem loadLine_silent {loader : Loader} {line : List Char} (silent : InstrumentMap.Silent line)
    (index : Nat) : loader.loadLine index line = .ok loader := by
  unfold loadLine
  rw [if_pos (InstrumentMap.silent_iff.mp silent)]

/-- A line that is not silent is accepted when it says an entry admitted there. -/
theorem loadLine_ok {loader loader' : Loader} {line : List Char}
    (speaks : ¬ InstrumentMap.Silent line) {index : Nat} :
    loader.loadLine index line = .ok loader' ↔
      ∃ entry, Says line entry ∧ loader.Admits entry ∧ loader' = loader.enter entry := by
  unfold loadLine
  dsimp only
  rw [if_neg (fun h => speaks (InstrumentMap.silent_iff.mpr h))]
  split
  · rename_i header
    rw [List.isPrefixOf_iff_prefix] at header
    rw [loadHeader_ok]
    constructor
    · rintro (⟨same, rfl⟩ | ⟨same, rfl⟩)
      · exact ⟨.default, .default same, trivial, rfl⟩
      · exact ⟨.session, .session same, trivial, rfl⟩
    · rintro ⟨entry, entry_, -, rfl⟩
      cases entry_ with
      | default same => exact .inl ⟨same, rfl⟩
      | session same => exact .inr ⟨same, rfl⟩
      | setting split _ known => exact absurd header (setting_head split known)
  · rename_i header
    rw [List.isPrefixOf_iff_prefix] at header
    rw [loadSetting_ok]
    constructor
    · rintro ⟨before, after, split, first, known, filled, admits, rfl⟩
      exact ⟨_, .setting split first known filled, admits, rfl⟩
    · rintro ⟨entry, entry_, admits, rfl⟩
      cases entry_ with
      | default same => exact absurd (by rw [same]; decide) header
      | session same => exact absurd (by rw [same]; decide) header
      | setting split first known filled =>
        exact ⟨_, _, split, first, known, filled, admits, rfl⟩

/-- What has been read, section by section, and the section of the next line. -/
structure Holds (loader : Loader) (settings : List Setting) : Prop where
  written : ∀ place key value, loader.config.written place key = some value ↔
    ⟨place, key, value⟩ ∈ settings
  inside : ∀ index, loader.place = .session index → index < loader.config.sessions.length

theorem holds_new : new.Holds [] := by
  constructor
  · intro place key value
    cases place <;> simp [FixConfig.written, new, SessionSettings.get]
  · intro index here
    cases here

theorem written_enterSession (loader : Loader) (place : Section) (key : String) :
    loader.enterSession.config.written place key = loader.config.written place key := by
  cases place with
  | none => rfl
  | default => rfl
  | session index =>
    unfold enterSession FixConfig.written
    dsimp only
    rw [List.getElem?_append]
    split
    · rfl
    · rename_i beyond
      rw [List.getElem?_eq_none (not_lt.mp beyond), List.getElem?_singleton]
      split <;> simp [SessionSettings.get]

theorem written_insert {loader : Loader} (named : loader.place ≠ .none)
    (inside : ∀ index, loader.place = .session index → index < loader.config.sessions.length)
    (key value : String) (place : Section) (other : String) :
    (loader.insert key value).config.written place other =
      if place = loader.place ∧ other = key then some value
      else loader.config.written place other := by
  obtain ⟨config, here⟩ := loader
  cases here with
  | none => exact absurd rfl named
  | default =>
    cases place with
    | none => simp [FixConfig.written]
    | default =>
      simp only [insert, FixConfig.written, SessionSettings.get, SessionSettings.insert,
        HashMap.get?_set, true_and]
    | session index => simp [insert, FixConfig.written]
  | session here =>
    have bound := inside here rfl
    cases place with
    | none => simp [FixConfig.written]
    | default => simp [insert, FixConfig.written]
    | session index =>
      simp only [insert, FixConfig.written, SessionSettings.get, SessionSettings.insert,
        List.getElem?_modify, Section.session.injEq]
      by_cases same : index = here
      · subst same
        dsimp only at bound
        rw [List.getElem?_eq_getElem bound]
        simp [HashMap.get?_set]
      · simp [same, Ne.symm same]

theorem Holds.insert {loader : Loader} {settings : List Setting} (h : loader.Holds settings)
    {key value : String} (admits : loader.Admits (.setting key value)) :
    (loader.insert key value).Holds (settings ++ [⟨loader.place, key, value⟩]) := by
  obtain ⟨named, fresh⟩ := admits
  constructor
  · intro place other value'
    rw [written_insert named h.inside, List.mem_append, List.mem_singleton, Setting.mk.injEq]
    split
    · rename_i same
      obtain ⟨rfl, rfl⟩ := same
      constructor
      · intro here
        exact .inr ⟨rfl, rfl, (Option.some.inj here).symm⟩
      · rintro (old | ⟨-, -, rfl⟩)
        · rw [(h.written _ _ _).mpr old] at fresh
          cases fresh
        · rfl
    · rename_i apart
      rw [h.written]
      constructor
      · exact .inl
      · rintro (old | ⟨rfl, rfl, -⟩)
        · exact old
        · exact absurd ⟨rfl, rfl⟩ apart
  · intro index here
    obtain ⟨config, place⟩ := loader
    cases place with
    | none => exact absurd rfl named
    | default => cases here
    | session open_ =>
      obtain rfl := Section.session.inj here
      unfold Loader.insert
      dsimp only
      rw [List.length_modify]
      exact h.inside _ rfl

theorem Holds.enterDefault {loader : Loader} {settings : List Setting} (h : loader.Holds settings) :
    loader.enterDefault.Holds settings := by
  refine ⟨h.written, ?_⟩
  intro index here
  cases here

theorem Holds.enterSession {loader : Loader} {settings : List Setting} (h : loader.Holds settings) :
    loader.enterSession.Holds settings := by
  constructor
  · intro place key value
    rw [written_enterSession]
    exact h.written place key value
  · intro index here
    obtain rfl := Section.session.inj here
    simp [Loader.enterSession]

theorem Holds.fresh_iff {loader : Loader} {settings : List Setting} (h : loader.Holds settings)
    {place : Section} {key : String} :
    loader.config.written place key = none ↔ (place, key) ∉ settings.map Setting.slot := by
  rw [← not_iff_not, ← Ne, Option.ne_none_iff_exists', not_not, List.mem_map]
  constructor
  · rintro ⟨value, found⟩
    exact ⟨_, (h.written place key value).mp found, rfl⟩
  · rintro ⟨⟨place', key', value⟩, mem, same⟩
    obtain ⟨rfl, rfl⟩ := Prod.mk.inj same
    exact ⟨value, (h.written _ _ _).mpr mem⟩

theorem place_insert (loader : Loader) (key value : String) :
    (loader.insert key value).place = loader.place := by
  unfold insert
  split <;> rfl

theorem sessions_insert (loader : Loader) (key value : String) :
    (loader.insert key value).config.sessions.length = loader.config.sessions.length := by
  unfold insert
  split
  · rfl
  · rfl
  · exact List.length_modify ..

/-- The settings of some further entries. -/
def placing (loader : Loader) (entries : List Entry) : List Setting :=
  Setting.placedFrom loader.place loader.config.sessions.length entries

/-- The setting an entry adds, if it is one. -/
def adding (loader : Loader) : Entry → List Setting
  | .setting key value => [⟨loader.place, key, value⟩]
  | .default | .session => []

theorem placing_cons (loader : Loader) (entry : Entry) (entries : List Entry) :
    loader.placing (entry :: entries) =
      loader.adding entry ++ (loader.enter entry).placing entries := by
  cases entry with
  | default => rfl
  | session =>
    have more : loader.enterSession.config.sessions.length =
        loader.config.sessions.length + 1 := by simp [enterSession]
    unfold placing
    dsimp only [enter]
    rw [more]
    rfl
  | setting key value =>
    unfold placing
    dsimp only [enter]
    rw [place_insert, sessions_insert]
    rfl

theorem Holds.entered {loader : Loader} {settings : List Setting} (h : loader.Holds settings)
    {entry : Entry} (admits : loader.Admits entry) :
    (loader.enter entry).Holds (settings ++ loader.adding entry) := by
  cases entry with
  | default => exact (List.append_nil settings).symm ▸ h.enterDefault
  | session => exact (List.append_nil settings).symm ▸ h.enterSession
  | setting key value => exact h.insert admits

/-- An entry is admitted when it adds nothing outside sections and nothing twice. -/
theorem Holds.admits_iff {loader : Loader} {settings : List Setting} (h : loader.Holds settings)
    (once : (settings.map Setting.slot).Nodup) {entry : Entry} :
    loader.Admits entry ↔ (∀ setting ∈ loader.adding entry, setting.place ≠ .none) ∧
      ((settings ++ loader.adding entry).map Setting.slot).Nodup := by
  cases entry with
  | default | session => simpa [Admits, adding] using once
  | setting key value =>
    have fresh : loader.config.written loader.place key = none ↔
        (loader.place, key) ∉ settings.map Setting.slot := h.fresh_iff
    rw [Admits, adding, List.forall_mem_singleton, List.map_append, List.map_singleton,
      List.nodup_append_comm, List.singleton_append, List.nodup_cons, and_iff_left once, fresh]
    rfl

/-- The lines of a file from some point on are accepted when they say entries whose
settings stand in sections and are given once, those before included. -/
theorem loadLines_ok (lines : List (List Char)) : ∀ {loader : Loader} (loader' : Loader)
    {settings : List Setting} (index : Nat), loader.Holds settings →
      (settings.map Setting.slot).Nodup →
      (loader.loadLines index lines = .ok loader' ↔ ∃ entries,
        List.Forall₂ Says (lines.filter (fun line => !decide (InstrumentMap.Silent line))) entries ∧
        (∀ setting ∈ loader.placing entries, setting.place ≠ .none) ∧
        ((settings ++ loader.placing entries).map Setting.slot).Nodup ∧
        loader' = entries.foldl enter loader) := by
  induction lines with
  | nil =>
    intro loader loader' settings index holds once
    rw [loadLines, List.filter_nil]
    constructor
    · intro load
      exact ⟨[], .nil, by simp [placing, Setting.placedFrom],
        by simpa [placing, Setting.placedFrom] using once, (Except.ok.inj load).symm⟩
    · rintro ⟨entries, none_, -, -, rfl⟩
      cases none_
      rfl
  | cons line lines ih =>
    intro loader loader' settings index holds once
    rw [loadLines, bind_eq_ok]
    by_cases silent : InstrumentMap.Silent line
    · rw [List.filter_cons_of_neg (by simp [silent]), loadLine_silent silent,
        ← ih loader' (index + 1) holds once]
      constructor
      · rintro ⟨next, same, load⟩
        cases same
        exact load
      · exact fun load => ⟨loader, rfl, load⟩
    · rw [List.filter_cons_of_pos (by simp [silent])]
      constructor
      · rintro ⟨next, here, load⟩
        obtain ⟨entry, entry_, admits, rfl⟩ := (loadLine_ok silent).mp here
        obtain ⟨inside, apart⟩ := (holds.admits_iff once).mp admits
        obtain ⟨entries, rest, placed_, once_, same⟩ :=
          (ih loader' (index + 1) (holds.entered admits) apart).mp load
        rw [List.append_assoc, ← placing_cons] at once_
        refine ⟨entry :: entries, .cons entry_ rest, ?_, once_, same⟩
        rw [placing_cons]
        exact List.forall_mem_append.mpr ⟨inside, placed_⟩
      · rintro ⟨all, entries_, placed_, once_, same⟩
        cases entries_ with
        | @cons _ entry _ entries entry_ rest =>
          rw [placing_cons] at placed_ once_
          rw [← List.append_assoc] at once_
          obtain ⟨inside, placed_⟩ := List.forall_mem_append.mp placed_
          have apart := once_
          rw [List.map_append] at apart
          have admits := (holds.admits_iff once).mpr ⟨inside, apart.of_append_left⟩
          exact ⟨_, (loadLine_ok silent).mpr ⟨entry, entry_, admits, rfl⟩,
            (ih loader' (index + 1) (holds.entered admits) apart.of_append_left).mpr
              ⟨entries, rest, placed_, once_, same⟩⟩

/-- Sessions begin with their headers. -/
theorem sessions_enter (entries : List Entry) : ∀ loader : Loader,
    (entries.foldl enter loader).config.sessions.length =
      loader.config.sessions.length + entries.count .session := by
  induction entries with
  | nil =>
    intro loader
    rfl
  | cons entry entries ih =>
    intro loader
    rw [List.foldl_cons, ih, List.count_cons]
    cases entry with
    | default => rfl
    | session => simp [enter, enterSession, Nat.add_comm, Nat.add_left_comm]
    | setting key value =>
      change (loader.insert key value).config.sessions.length + _ = _
      rw [sessions_insert]
      rfl

/-- Everything that was read is kept, in its section. -/
theorem Holds.all (entries : List Entry) : ∀ {loader : Loader} {settings : List Setting},
    loader.Holds settings → (∀ setting ∈ loader.placing entries, setting.place ≠ .none) →
      ((settings ++ loader.placing entries).map Setting.slot).Nodup →
      (entries.foldl enter loader).Holds (settings ++ loader.placing entries) := by
  induction entries with
  | nil =>
    intro loader settings holds _ _
    simpa [placing, Setting.placedFrom] using holds
  | cons entry entries ih =>
    intro loader settings holds within once
    cases entry with
    | default => exact ih holds.enterDefault within once
    | session =>
      have rest := ih holds.enterSession
      unfold placing at rest
      simp only [Loader.enterSession, List.length_append, List.length_singleton] at rest
      exact rest within once
    | setting key value =>
      have admits : loader.Admits (.setting key value) := by
        refine ⟨within ⟨loader.place, key, value⟩ List.mem_cons_self, holds.fresh_iff.mpr ?_⟩
        rw [List.map_append] at once
        exact fun mem => List.disjoint_of_nodup_append once mem List.mem_cons_self
      have rest := ih (holds.insert admits)
      unfold placing at rest
      rw [place_insert, sessions_insert] at rest
      simp only [List.append_assoc, List.singleton_append] at rest
      exact rest (fun setting mem => within setting (List.mem_cons_of_mem _ mem)) once

end Loader

namespace FixConfig

/-- The value an entry of the file gives to a key in a section. -/
def Wrote (entries : List Entry) (place : Section) (key value : String) : Prop :=
  ⟨place, key, value⟩ ∈ placed entries

/-- A file is parsed when it has a reading. -/
theorem parse_ok {text : String} {config : FixConfig} : parse text = .ok config ↔
    ∃ entries, Reading text entries ∧ config = (entries.foldl Loader.enter .new).config := by
  unfold parse
  rw [bind_eq_ok]
  constructor
  · rintro ⟨loader, lines, same⟩
    obtain ⟨entries, entries_, within, once, rfl⟩ :=
      (Loader.loadLines_ok _ _ 0 Loader.holds_new List.nodup_nil).mp lines
    exact ⟨entries, ⟨entries_, within, once⟩, (Except.ok.inj same).symm⟩
  · rintro ⟨entries, reading, rfl⟩
    exact ⟨_, (Loader.loadLines_ok _ _ 0 Loader.holds_new List.nodup_nil).mpr
      ⟨entries, reading.lines, reading.within, reading.once, rfl⟩, rfl⟩

variable {text : String} {config : FixConfig} {entries : List Entry}

theorem parsed (reading : Reading text entries) (h : parse text = .ok config) :
    config = (entries.foldl Loader.enter .new).config := by
  obtain ⟨entries', reading', rfl⟩ := parse_ok.mp h
  rw [reading.unique reading']

theorem written_iff (reading : Reading text entries) (h : parse text = .ok config)
    (place : Section) (key value : String) :
    config.written place key = some value ↔ Wrote entries place key value := by
  have holds := Loader.holds_new.all entries reading.within reading.once
  rw [parsed reading h]
  exact holds.written place key value

theorem sessions_count (reading : Reading text entries) (h : parse text = .ok config) :
    config.sessions.length = entries.count .session := by
  rw [parsed reading h, Loader.sessions_enter]
  exact Nat.zero_add _

theorem get_session {index : Nat} {settings : SessionSettings}
    (here : config.session index = some settings) (key : String) :
    settings.get key =
      (config.written (.session index) key).or (config.written .default key) := by
  obtain ⟨session, found, rfl⟩ := Option.map_eq_some_iff.mp here
  change HashMap.get? (HashMap.extend _ _) key = _
  rw [HashMap.get?_extend]
  simp only [written, found, Option.bind_some]
  rfl

theorem range_filterMap {α : Type} (l : List α) :
    (List.range l.length).filterMap (fun index => l[index]?) = l := by
  induction l using List.reverseRecOn with
  | nil => rfl
  | append_singleton l a ih =>
    rw [List.length_append, List.length_singleton, List.range_succ, List.filterMap_append]
    have before : (List.range l.length).filterMap (fun index => (l ++ [a])[index]?) =
        (List.range l.length).filterMap (fun index => l[index]?) := by
      refine List.filterMap_congr ?_
      intro index mem
      exact List.getElem?_append_left (List.mem_range.mp mem)
    rw [before, ih]
    simp

theorem resolvedSessions_get (config : FixConfig) (index : Nat) :
    config.resolvedSessions[index]? = config.session index := by
  have all : config.resolvedSessions = config.sessions.map
      (fun session => ⟨HashMap.extend config.defaults.settings session.settings⟩) := by
    have inner := range_filterMap (config.sessions.map
      (fun session => (⟨HashMap.extend config.defaults.settings session.settings⟩ :
        SessionSettings)))
    rw [List.length_map] at inner
    rw [← inner]
    unfold resolvedSessions
    refine List.filterMap_congr ?_
    intro index _
    rw [List.getElem?_map]
    rfl
  rw [all, List.getElem?_map]
  rfl

theorem validateChoice_ok {settings : SessionSettings} {key message : String}
    {choices : List String} : settings.validateChoice key choices message = .ok () ↔
      ∀ value, settings.get key = some value → value ∈ choices := by
  unfold SessionSettings.validateChoice
  rw [forM_option_eq_ok]
  refine forall_congr' fun value => imp_congr_right fun _ => ?_
  split <;> simp [*]

theorem validateValues_ok : config.validateValues = .ok () ↔
    (∀ settings ∈ config.defaults :: config.resolvedSessions, settings.validate = .ok ()) ∧
    config.validateFillPolicy = .ok () ∧
    validateIdentities 0 [] config.resolvedSessions = .ok () := by
  unfold validateValues
  rw [bind_eq_ok, ← forM_list_eq_ok]
  constructor
  · rintro ⟨⟨⟩, values, rest⟩
    obtain ⟨⟨⟩, policy, identities⟩ := bind_eq_ok.mp rest
    exact ⟨values, policy, identities⟩
  · rintro ⟨values, policy, identities⟩
    exact ⟨⟨⟩, values, bind_eq_ok.mpr ⟨⟨⟩, policy, identities⟩⟩

theorem load_ok : load text = .ok config ↔
    parse text = .ok config ∧ config.validateValues = .ok () := by
  unfold load
  rw [bind_eq_ok]
  constructor
  · rintro ⟨config', parsed, rest⟩
    obtain ⟨⟨⟩, valid, same⟩ := bind_eq_ok.mp rest
    cases same
    exact ⟨parsed, valid⟩
  · rintro ⟨parsed, valid⟩
    exact ⟨config, parsed, bind_eq_ok.mpr ⟨⟨⟩, valid, rfl⟩⟩

/-- The policy stands in the defaults only, and is one of two. -/
def Policied (entries : List Entry) : Prop :=
  ∀ setting ∈ placed entries, setting.key = "FillPolicy" →
    setting.place = .default ∧ (setting.value = "Real" ∨ setting.value = "Tiered")

theorem validateFillPolicy_ok (reading : Reading text entries) (h : parse text = .ok config) :
    config.validateFillPolicy = .ok () ↔ Policied entries := by
  have written := written_iff reading h
  unfold validateFillPolicy
  rw [bind_eq_ok]
  constructor
  · rintro ⟨⟨⟩, defaults, sessions⟩ ⟨place, key, value⟩ mem rfl
    have here := (written place "FillPolicy" value).mpr mem
    cases place with
    | none => exact absurd rfl (reading.within _ mem)
    | default => exact ⟨rfl, by simpa using validateChoice_ok.mp defaults value here⟩
    | session index =>
      obtain ⟨session, found, given⟩ := Option.bind_eq_some_iff.mp here
      have none_ := forM_list_eq_ok.mp sessions session (List.mem_of_getElem? found)
      exact absurd (validateChoice_ok.mp none_ value given) List.not_mem_nil
  · intro policied
    refine ⟨⟨⟩, validateChoice_ok.mpr ?_, forM_list_eq_ok.mpr ?_⟩
    · intro value here
      have given := policied _ ((written .default "FillPolicy" value).mp here) rfl
      simpa using given.2
    · intro session mem
      refine validateChoice_ok.mpr ?_
      intro value here
      obtain ⟨index, found⟩ := List.mem_iff_getElem?.mp mem
      have place : config.written (.session index) "FillPolicy" = some value := by
        simp only [FixConfig.written, found, Option.bind_some, here]
      cases (policied _ ((written _ _ _).mp place) rfl).1

/-- An error that is not about the policy. -/
def Elsewhere (err : ConfigError) : Prop :=
  ∀ value message, err ≠ .unsupported "FillPolicy" value message

theorem elsewhere {key value message : String} (other : key ≠ "FillPolicy") :
    Elsewhere (.unsupported key value message) := by
  intro value' message' same
  exact other (ConfigError.unsupported.inj same).1

theorem validateChoice_elsewhere (settings : SessionSettings) {key : String}
    (other : key ≠ "FillPolicy") (choices : List String) (message : String) :
    Yields Elsewhere (settings.validateChoice key choices message) fun _ => True := by
  refine Yields.forM_option ?_
  intro value
  split
  · exact .ok trivial
  · exact .error (elsewhere other)

theorem bool_elsewhere (settings : SessionSettings) {key : String} (other : key ≠ "FillPolicy")
    (default : Bool) : Yields Elsewhere (settings.bool key default) fun _ => True := by
  unfold SessionSettings.bool
  repeat' split
  all_goals first | exact .ok trivial | exact .error (elsewhere other)

theorem u16_elsewhere (settings : SessionSettings) {key : String} (other : key ≠ "FillPolicy")
    (default : Nat) : Yields Elsewhere (settings.u16 key default) fun _ => True := by
  unfold SessionSettings.u16 parseU16
  repeat' split
  all_goals first | exact .ok trivial | exact .error (elsewhere other)

theorem u32_elsewhere (settings : SessionSettings) {key : String} (other : key ≠ "FillPolicy")
    (default : Nat) : Yields Elsewhere (settings.u32 key default) fun _ => True := by
  unfold SessionSettings.u32 parseU32
  repeat' split
  all_goals first | exact .ok trivial | exact .error (elsewhere other)

theorem validateCompId_elsewhere {key : String} (other : key ≠ "FillPolicy") (value : String) :
    Yields Elsewhere (validateCompId key value) fun _ => True := by
  unfold validateCompId
  split
  · exact .error (elsewhere other)
  · exact .ok trivial
/-- Nothing that is checked of a section's values is the policy. -/
theorem validate_elsewhere (settings : SessionSettings) :
    Yields Elsewhere settings.validate fun _ => True := by
  unfold SessionSettings.validate
  refine (validateChoice_elsewhere settings (by decide) _ _).bind fun _ _ => ?_
  refine (validateChoice_elsewhere settings (by decide) _ _).bind fun _ _ => ?_
  refine Yields.bind (P := fun _ => True) (Yields.forM_list ?_) fun _ _ => ?_
  · intro key mem
    exact (bool_elsewhere settings (ne_of_mem_of_not_mem mem (by decide)) _).bind fun _ _ =>
      .ok trivial
  refine (u32_elsewhere settings (by decide) _).bind fun _ _ => ?_
  refine Yields.bind (P := fun _ => True) (Yields.forM_list ?_) fun _ _ => ?_
  · intro key mem
    exact (u16_elsewhere settings (ne_of_mem_of_not_mem mem (by decide)) _).bind fun _ _ =>
      .ok trivial
  refine Yields.bind (P := fun _ => True) (Yields.forM_list ?_) fun _ _ => ?_
  · intro key mem
    exact Yields.forM_option (validateCompId_elsewhere (ne_of_mem_of_not_mem mem (by decide)))
  refine Yields.forM_option fun value => Yields.forM_list fun target _ => ?_
  split
  · exact .error (elsewhere (by decide))
  · exact validateCompId_elsewhere (by decide) target

theorem required_elsewhere (settings : SessionSettings) (place key : String) :
    Yields Elsewhere (settings.required place key) fun _ => True := by
  unfold SessionSettings.required
  split
  · exact .error fun value message same => by cases same
  · exact .ok trivial

theorem validateIdentities_elsewhere (sessions : List SessionSettings) :
    ∀ (index : Nat) (identities : List String),
      Yields Elsewhere (validateIdentities index identities sessions) fun _ => True := by
  induction sessions with
  | nil =>
    intro index identities
    exact .ok trivial
  | cons settings rest ih =>
    intro index identities
    unfold validateIdentities
    refine (required_elsewhere settings _ _).bind fun _ _ => ?_
    refine (required_elsewhere settings _ _).bind fun _ _ => ?_
    split
    · exact ih _ _
    · split
      · exact .error fun value message same => by cases same
      · exact ih _ _

/-- A file is refused for its policy just when everything else that is checked before is fine. -/
theorem load_elsewhere (fine : config.validateFillPolicy = .ok ()) (h : parse text = .ok config) :
    ∀ err, load text = .error err → Elsewhere err := by
  have parsing : Yields Elsewhere (parse text) fun checked => checked = config := by
    rw [h]
    exact .ok rfl
  refine Yields.fails (Q := fun _ => True) (parsing.bind ?_)
  rintro checked rfl
  refine Yields.bind (P := fun _ => True) ?_ fun _ _ => .ok trivial
  refine (Yields.forM_list fun settings _ => validate_elsewhere settings).bind fun _ _ => ?_
  rw [fine]
  exact validateIdentities_elsewhere _ _ _

/-- Sessions that pass have a begin string, and no two of them have one identity. -/
theorem validateIdentities_ok (sessions : List SessionSettings) :
    ∀ {index : Nat} {identities : List String},
      validateIdentities index identities sessions = .ok () →
      (∀ settings ∈ sessions, settings.get "BeginString" ≠ none) ∧
      (∀ settings ∈ sessions, ∀ identity ∈ settings.identity, identity ∉ identities) ∧
      (sessions.filterMap SessionSettings.identity).Nodup := by
  induction sessions with
  | nil =>
    intro index identities _
    simp
  | cons settings rest ih =>
    intro index identities h
    obtain ⟨_, -, h⟩ := bind_eq_ok.mp h
    obtain ⟨begin_, named, h⟩ := bind_eq_ok.mp h
    have given : settings.get "BeginString" ≠ none := by
      intro absent
      unfold SessionSettings.required at named
      rw [absent] at named
      cases named
    simp only [List.forall_mem_cons]
    cases own : settings.identity with
    | none =>
      simp only [own] at h
      obtain ⟨strings, apart, distinct⟩ := ih h
      rw [List.filterMap_cons_none own]
      exact ⟨⟨given, strings⟩, ⟨by simp, apart⟩, distinct⟩
    | some identity =>
      simp only [own] at h
      split at h
      · cases h
      rename_i fresh
      obtain ⟨strings, apart, distinct⟩ := ih h
      rw [List.filterMap_cons_some own, List.nodup_cons, List.mem_filterMap]
      refine ⟨⟨given, strings⟩, ⟨?_, ?_⟩, ?_, distinct⟩
      · rintro _ ⟨⟩
        exact fresh
      · intro other mem identity' here old
        exact apart other mem identity' here (List.mem_cons_of_mem _ old)
      · rintro ⟨other, mem, here⟩
        exact apart other mem identity here List.mem_cons_self

theorem index_of_nodup {α β : Type} {f : α → Option β} {l : List α}
    (distinct : (l.filterMap f).Nodup) {i j : Nat} {a a' : α} (first : l[i]? = some a)
    (second : l[j]? = some a') {b : β} (h : f a = some b) (h' : f a' = some b) : i = j := by
  have apart := List.pairwise_iff_getElem.mp (List.pairwise_filterMap.mp distinct)
  obtain ⟨hi, rfl⟩ := List.getElem?_eq_some_iff.mp first
  obtain ⟨hj, rfl⟩ := List.getElem?_eq_some_iff.mp second
  rcases lt_trichotomy i j with before | same | after
  · exact absurd rfl (apart i j hi hj before b h b h')
  · exact same
  · exact absurd rfl (apart j i hj hi after b h' b h)

/-- Two accepted sessions differ in what identifies them, where both have it. -/
theorem identities_differ (h : load text = .ok config) {i j : Nat} (apart : i ≠ j)
    {one other : SessionSettings} (first : config.session i = some one)
    (second : config.session j = some other)
    (begins : one.get "BeginString" = other.get "BeginString")
    (senders : one.get "SenderCompID" = other.get "SenderCompID")
    (targets : one.get "TargetCompID" = other.get "TargetCompID") :
    one.get "SenderCompID" = none ∨ one.get "TargetCompID" = none := by
  obtain ⟨-, -, identities⟩ := validateValues_ok.mp (load_ok.mp h).2
  obtain ⟨strings, -, distinct⟩ := validateIdentities_ok _ identities
  rw [← resolvedSessions_get] at first second
  have same : one.identity = other.identity := by
    unfold SessionSettings.identity
    rw [begins, senders, targets]
  have given := strings one (List.mem_of_getElem? first)
  by_contra! both
  obtain ⟨begin_, hbegin⟩ := Option.ne_none_iff_exists'.mp given
  obtain ⟨sender, hsender⟩ := Option.ne_none_iff_exists'.mp both.1
  obtain ⟨target, htarget⟩ := Option.ne_none_iff_exists'.mp both.2
  have named : one.identity = some (begin_ ++ "|" ++ sender ++ "|" ++ target) := by
    unfold SessionSettings.identity
    rw [hbegin, hsender, htarget]
    rfl
  exact apart (index_of_nodup distinct first second named (same ▸ named))

/-- A settings file has one reading or is refused. Its sessions are numbered as their
headers come, and each sees its own values over those of the defaults. The policy is
accepted in the defaults only, and sessions that have the same two identifiers and the
same begin string are refused. -/
theorem settings_read (text : String) :
    ((∃ config, parse text = .ok config) ↔ ∃ entries, Reading text entries) ∧
    ∀ entries, Reading text entries → ∀ config, parse text = .ok config →
      config.sessions.length = entries.count .session ∧
      (∀ index, index < config.sessions.length ↔ ∃ settings, config.session index = some settings) ∧
      (∀ index settings, config.session index = some settings → ∀ key value,
        settings.get key = some value ↔ Wrote entries (.session index) key value ∨
          (∀ own, ¬ Wrote entries (.session index) key own) ∧ Wrote entries .default key value) ∧
      (∀ accepted, load text = .ok accepted → accepted = config ∧ Policied entries) ∧
      (∀ value message, load text = .error (.unsupported "FillPolicy" value message) →
        ¬ Policied entries) ∧
      ∀ i j one other, i ≠ j → config.session i = some one → config.session j = some other →
        one.get "BeginString" = other.get "BeginString" →
        one.get "SenderCompID" = other.get "SenderCompID" →
        one.get "TargetCompID" = other.get "TargetCompID" →
        one.get "SenderCompID" ≠ none → one.get "TargetCompID" ≠ none →
        ∃ err, load text = .error err := by
  constructor
  · simp only [parse_ok]
    constructor
    · rintro ⟨config, entries, reading, -⟩
      exact ⟨entries, reading⟩
    · rintro ⟨entries, reading⟩
      exact ⟨_, entries, reading, rfl⟩
  intro entries reading config parsed
  refine ⟨sessions_count reading parsed, ?_, ?_, ?_, ?_, ?_⟩
  · intro index
    unfold session
    rw [← Option.isSome_iff_exists, Option.isSome_map, isSome_getElem?]
  · intro index settings here key value
    rw [get_session here, ← written_iff reading parsed, ← written_iff reading parsed]
    simp only [← written_iff reading parsed]
    cases config.written (.session index) key <;> simp
  · intro accepted h
    obtain ⟨parsed', valid⟩ := load_ok.mp h
    obtain rfl := Except.ok.inj (parsed.symm.trans parsed')
    exact ⟨rfl, (validateFillPolicy_ok reading parsed).mp (validateValues_ok.mp valid).2.1⟩
  · intro value message refused policied
    exact load_elsewhere ((validateFillPolicy_ok reading parsed).mpr policied) parsed _ refused
      value message rfl
  · intro i j one other apart first second begins senders targets sender target
    cases h : load text with
    | error err => exact ⟨err, rfl⟩
    | ok accepted =>
      obtain ⟨parsed', -⟩ := load_ok.mp h
      obtain rfl := Except.ok.inj (parsed.symm.trans parsed')
      rcases identities_differ h apart first second begins senders targets with absent | absent
      · exact absurd absent sender
      · exact absurd absent target

/-- What a session of an accepted file sees. -/
def looked (text : String) (index : Nat) (key : String) : Option (Option String) :=
  (load text).toOption.bind fun config => (config.session index).map fun settings =>
    settings.get key

theorem looked_eq {text : String} {index : Nat} {key : String} {value : Option String}
    (h : looked text index key = some value) : ∃ config settings, load text = .ok config ∧
      config.session index = some settings ∧ settings.get key = value := by
  obtain ⟨config, accepted, h⟩ := Option.bind_eq_some_iff.mp h
  obtain ⟨settings, here, same⟩ := Option.map_eq_some_iff.mp h
  exact ⟨config, settings, toOption_eq_some.mp accepted, here, same⟩

/-- Two sessions with one sender and no target. -/
def untargeted : String :=
  "[DEFAULT]\nConnectionType=acceptor\nBeginString=FIX.4.2\nSenderCompID=GOX\n[SESSION]\n[SESSION]\n"

/-- Sessions that are not told apart are accepted when they name no target. -/
theorem untargeted_accepted : ¬ ∀ (text : String) (config : FixConfig) (i j : Nat)
    (one other : SessionSettings), parse text = .ok config → i ≠ j →
      config.session i = some one → config.session j = some other →
      one.get "BeginString" = other.get "BeginString" →
      one.get "SenderCompID" = other.get "SenderCompID" →
      one.get "TargetCompID" = other.get "TargetCompID" → ∃ err, load text = .error err := by
  intro claim
  have sees : ∀ index < 2, ∀ key ∈ [("BeginString", some "FIX.4.2"), ("SenderCompID", some "GOX"),
      ("TargetCompID", none)], looked untargeted index key.1 = some key.2 := by decide +kernel
  obtain ⟨config, one, accepted, first, -⟩ := looked_eq
    (sees 0 (by decide) ("TargetCompID", none) (by decide))
  obtain ⟨config', other, accepted', second, -⟩ :=
    looked_eq (sees 1 (by decide) ("TargetCompID", none) (by decide))
  obtain rfl := Except.ok.inj (accepted.symm.trans accepted')
  have own : ∀ key ∈ [("BeginString", some "FIX.4.2"), ("SenderCompID", some "GOX"),
      ("TargetCompID", none)], one.get key.1 = key.2 ∧ other.get key.1 = key.2 := by
    intro key mem
    constructor
    · have here := sees 0 (by decide) key mem
      simpa [looked, accepted, first, Except.toOption] using here
    · have here := sees 1 (by decide) key mem
      simpa [looked, accepted, second, Except.toOption] using here
  simp only [List.forall_mem_cons] at own
  obtain ⟨begins, senders, targets, -⟩ := own
  obtain ⟨err, refused⟩ := claim untargeted config 0 1 one other (load_ok.mp accepted).1 (by decide)
    first second (begins.1.trans begins.2.symm) (senders.1.trans senders.2.symm)
    (targets.1.trans targets.2.symm)
  rw [accepted] at refused
  cases refused

end FixConfig

end RustTrader.Fix
