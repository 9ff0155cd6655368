import Mathlib.Data.List.Induction
import Mathlib.Data.List.TakeWhile
import TypeContracts.Proofs.Session

/-!
The logger as it is set call by call. A setting name is read between blanks and without regard to letter
case; a text that is none is refused. The filter in force is the one that the last call to set one has set,
and a record is printed if it is at least as severe. All this is shown for filters, and then for the counts
of levels that a process keeps in their place. Main statement: `LogState.run_obeys_last_setting`.
-/

namespace TypeContracts

/-! ## Setting names -/

/-- The text is the name in letters of either case, with nothing but blanks around it. -/
def Spells (s name : String) : Prop :=
  ∃ before word after : List Char, s.toList = before ++ word ++ after ∧
    (∀ c ∈ before, isBlank c) ∧ (∀ c ∈ after, isBlank c) ∧ word.map Char.toLower = name.toList

section trim

variable {p : Char → Bool} {before word after : List Char}

/-- A word without blanks is what is left when the blanks around it go. -/
theorem trim_append (hb : ∀ c ∈ before, p c) (hw : ∀ c ∈ word, ¬ p c) (ha : ∀ c ∈ after, p c) :
    (((before ++ word ++ after).dropWhile p).reverse.dropWhile p).reverse = word := by
  have front : (before ++ word ++ after).dropWhile p = (word ++ after).dropWhile p := by
    rw [List.append_assoc, List.dropWhile_append_of_pos hb]
  cases word with
  | nil =>
    have gone : after.dropWhile p = [] := List.dropWhile_eq_nil_iff.2 ha
    rw [front, List.nil_append, gone]
    rfl
  | cons c rest =>
    have kept : (c :: rest ++ after).dropWhile p = c :: rest ++ after := by
      rw [List.cons_append, List.dropWhile_cons_of_neg (hw c List.mem_cons_self)]
    have back : (c :: rest).reverse.dropWhile p = (c :: rest).reverse := by
      rw [List.dropWhile_eq_self_iff]
      intro h
      exact hw _ (List.mem_reverse.1 (List.getElem_mem h))
    rw [front, kept, List.reverse_append,
      List.dropWhile_append_of_pos (fun d hd => ha d (List.mem_reverse.1 hd)), back,
      List.reverse_reverse]

/-- Only blanks go. -/
theorem exists_eq_append_trim (p : Char → Bool) (text : List Char) :
    ∃ before after, text = before ++ ((text.dropWhile p).reverse.dropWhile p).reverse ++ after ∧
      (∀ c ∈ before, p c) ∧ ∀ c ∈ after, p c := by
  refine ⟨text.takeWhile p, ((text.dropWhile p).reverse.takeWhile p).reverse, ?_,
    fun c hc => List.mem_takeWhile_imp hc,
    fun c hc => List.mem_takeWhile_imp (List.mem_reverse.1 hc)⟩
  rw [List.append_assoc, ← List.reverse_append, List.takeWhile_append_dropWhile, List.reverse_reverse,
    List.takeWhile_append_dropWhile]

end trim

/-- Blanks are no capital letters. -/
theorem toLower_of_isBlank {c : Char} (h : isBlank c) : c.toLower = c := by
  have apart : c.toNat < 65 ∨ 90 < c.toNat := by
    simp only [isBlank, Bool.or_eq_true, Bool.and_eq_true, decide_eq_true_eq, beq_iff_eq] at h
    omega
  refine dif_neg ?_
  rintro ⟨low, high⟩
  have low : 65 ≤ c.toNat := low
  have high : c.toNat ≤ 90 := high
  omega

/-- A text has a name without blanks as its normal form if it spells the name. -/
theorem settingName_eq_iff {s name : String} (tight : ∀ c ∈ name.toList, ¬ isBlank c) :
    settingName s = name ↔ Spells s name := by
  have normal : settingName s = name ↔
      ((s.toList.dropWhile isBlank).reverse.dropWhile isBlank).reverse.map Char.toLower =
        name.toList := by
    rw [settingName, lowerLetters, trimBlanks, String.toList_ofList, ← String.toList_inj,
      String.toList_ofList]
  rw [normal]
  constructor
  · intro h
    obtain ⟨before, after, split, hb, ha⟩ := exists_eq_append_trim isBlank s.toList
    exact ⟨before, _, after, split, hb, ha, h⟩
  · rintro ⟨before, word, after, split, hb, ha, lowered⟩
    have hw : ∀ c ∈ word, ¬ isBlank c := by
      intro c hc blank
      refine tight c ?_ blank
      rw [← lowered, ← toLower_of_isBlank blank]
      exact List.mem_map_of_mem hc
    rw [split, trim_append hb hw ha, lowered]

namespace Level

/-- The names that settings have, each with the filter that it stands for. -/
def settings : List (String × Option Level) :=
  [("off", none), ("error", some .error), ("warn", some .warn), ("warning", some .warn),
    ("info", some .info), ("debug", some .debug), ("trace", some .trace)]

/-- The text names the filter. -/
def Names (s : String) (filter : Option Level) : Prop :=
  ∃ name, Spells s name ∧ (name, filter) ∈ settings

theorem mem_settings_none_iff {name : String} : (name, none) ∈ settings ↔ name = "off" := by
  simp [settings]

theorem mem_settings_some_iff {name : String} {level : Level} :
    (name, some level) ∈ settings ↔ name ≠ "off" ∧ ofSetting? name = some level := by
  unfold ofSetting?
  split <;> cases level <;> simp_all [settings]

/-- What a text names is listed under its normal form: no name has blanks in it. -/
theorem names_iff {s : String} {filter : Option Level} :
    Names s filter ↔ (settingName s, filter) ∈ settings := by
  have tight : ∀ entry ∈ settings, ∀ c ∈ entry.1.toList, ¬ isBlank c := by
    simp [settings, isBlank]
  constructor
  · rintro ⟨name, spells, listed⟩
    rwa [(settingName_eq_iff (tight _ listed)).2 spells]
  · intro listed
    exact ⟨_, (settingName_eq_iff (tight _ listed)).1 rfl, listed⟩

/-- A text is read as the filter that it names. -/
theorem parseFilter_eq_ok_iff {s : String} {filter : Option Level} :
    parseFilter s = .ok filter ↔ Names s filter := by
  rw [names_iff, parseFilter, parse]
  by_cases off : settingName s = "off"
  · rw [if_pos off, off]
    cases filter <;> simp [settings]
  · rw [if_neg off]
    cases filter with
    | none =>
      rw [mem_settings_none_iff]
      cases ofSetting? (settingName s) <;> simp [Except.map, off]
    | some level =>
      rw [mem_settings_some_iff]
      cases ofSetting? (settingName s) <;> simp [Except.map, off]

theorem parseFilter_cases (s : String) :
    (∃ filter, parseFilter s = .ok filter) ∨ parseFilter s = .error ⟨s⟩ := by
  rw [parseFilter, parse]
  split
  · exact .inl ⟨_, rfl⟩
  · cases ofSetting? (settingName s) with
    | none => exact .inr rfl
    | some level => exact .inl ⟨_, rfl⟩

/-- A text that names no filter is refused, and told. -/
theorem parseFilter_eq_error_iff {s : String} {e : LevelError} :
    parseFilter s = .error e ↔ e = ⟨s⟩ ∧ ∀ filter, ¬ Names s filter := by
  constructor
  · intro refused
    refine ⟨?_, fun filter names => ?_⟩
    · rcases parseFilter_cases s with ⟨filter, read⟩ | told
      · cases refused.symm.trans read
      · exact Except.error.inj (refused.symm.trans told)
    · cases refused.symm.trans (parseFilter_eq_ok_iff.2 names)
  · rintro ⟨rfl, nameless⟩
    rcases parseFilter_cases s with ⟨filter, read⟩ | told
    · exact absurd (parseFilter_eq_ok_iff.1 read) (nameless filter)
    · exact told

end Level

namespace Logger

/-! ## Calls -/

/-- A call that changes the logger. -/
inductive Setting where
  | level (level : Level)
  | disable
  | color (on : Bool)
  /-- Sets the filter that the text names. -/
  | text (s : String)

/-- The logger after a call. A text that is refused leaves it as it is. -/
def apply (l : Logger) : Setting → Logger
  | .level level => l.setLevel level
  | .disable => l.disable
  | .color on => l.setColor on
  | .text s =>
      match l.setFilter s with
      | .ok l' => l'
      | .error _ => l

/-- The logger after calls, in their order. -/
def run (l : Logger) (calls : List Setting) : Logger := calls.foldl apply l

theorem run_cons (l : Logger) (c : Setting) (calls : List Setting) :
    l.run (c :: calls) = (l.apply c).run calls := List.foldl_cons ..

theorem run_append (l : Logger) (calls more : List Setting) :
    l.run (calls ++ more) = (l.run calls).run more := List.foldl_append ..

theorem run_concat (l : Logger) (calls : List Setting) (c : Setting) :
    l.run (calls ++ [c]) = (l.run calls).apply c := run_append l calls [c]

/-- The call sets the filter. -/
inductive Sets : Setting → Option Level → Prop where
  | level (level : Level) : Sets (.level level) (some level)
  | disable : Sets .disable none
  | text {s : String} {filter : Option Level} (names : Level.Names s filter) : Sets (.text s) filter

/-- The filter is the one set by the last of the calls to set one; if none of them does, it is the
filter at the start. -/
def LastSet (start : Option Level) (calls : List Setting) (filter : Option Level) : Prop :=
  (filter = start ∧ ∀ c ∈ calls, ∀ f, ¬ Sets c f) ∨
    ∃ earlier c later, calls = earlier ++ c :: later ∧ Sets c filter ∧ ∀ d ∈ later, ∀ f, ¬ Sets d f

theorem setFilter_eq_ok_iff {l l' : Logger} {s : String} :
    l.setFilter s = .ok l' ↔ ∃ filter, Level.Names s filter ∧ l' = { l with filter := filter } := by
  simp only [← Level.parseFilter_eq_ok_iff]
  rw [setFilter]
  rcases Level.parseFilter_cases s with ⟨_ | level, read⟩ | told
  · simp [read, disable, eq_comm]
  · simp [read, setLevel, eq_comm]
  · simp [told]

theorem setFilter_eq_error_iff {l : Logger} {s : String} {e : LevelError} :
    l.setFilter s = .error e ↔ e = ⟨s⟩ ∧ ∀ filter, ¬ Level.Names s filter := by
  rw [← Level.parseFilter_eq_error_iff, setFilter]
  rcases Level.parseFilter_cases s with ⟨_ | level, read⟩ | told
  · simp [read]
  · simp [read]
  · simp [told]

theorem apply_of_sets {l : Logger} {c : Setting} {filter : Option Level} (h : Sets c filter) :
    l.apply c = { l with filter := filter } := by
  cases h with
  | level level => rfl
  | disable => rfl
  | text names => rw [apply, setFilter_eq_ok_iff.2 ⟨_, names, rfl⟩]

/-- A refused text changes nothing, neither the filter nor the colour. -/
theorem apply_text_of_refused {l : Logger} {s : String} (h : ∀ filter, ¬ Level.Names s filter) :
    l.apply (.text s) = l := by
  rw [apply, setFilter_eq_error_iff.2 ⟨rfl, h⟩]

theorem filter_apply_of_not_sets {l : Logger} {c : Setting} (h : ∀ f, ¬ Sets c f) :
    (l.apply c).filter = l.filter := by
  cases c with
  | level level => exact absurd (.level level) (h _)
  | disable => exact absurd .disable (h _)
  | color on => rfl
  | text s => rw [apply_text_of_refused fun filter names => h filter (.text names)]

theorem filter_run_of_not_sets {l : Logger} {calls : List Setting}
    (h : ∀ c ∈ calls, ∀ f, ¬ Sets c f) : (l.run calls).filter = l.filter := by
  induction calls generalizing l with
  | nil => rfl
  | cons c rest ih =>
    obtain ⟨first, others⟩ := List.forall_mem_cons.1 h
    calc (l.run (c :: rest)).filter
      _ = ((l.apply c).run rest).filter := by rw [run_cons]
      _ = (l.apply c).filter := ih others
      _ = l.filter := filter_apply_of_not_sets first

/-- Some filter was set last. -/
theorem exists_lastSet (start : Option Level) (calls : List Setting) :
    ∃ filter, LastSet start calls filter := by
  induction calls using List.reverseRecOn with
  | nil => exact ⟨start, .inl ⟨rfl, nofun⟩⟩
  | append_singleton calls c ih =>
    by_cases sets : ∃ f, Sets c f
    · obtain ⟨f, sets⟩ := sets
      exact ⟨f, .inr ⟨calls, c, [], rfl, sets, nofun⟩⟩
    · have idle : ∀ d ∈ [c], ∀ f, ¬ Sets d f := by
        simpa using sets
      obtain ⟨f, ⟨same, none⟩ | ⟨earlier, d, later, split, sets, others⟩⟩ := ih
      · exact ⟨f, .inl ⟨same, List.forall_mem_append.2 ⟨none, idle⟩⟩⟩
      · refine ⟨f, .inr ⟨earlier, d, later ++ [c], ?_, sets,
          List.forall_mem_append.2 ⟨others, idle⟩⟩⟩
        rw [split, List.append_assoc, List.cons_append]

theorem filter_run_of_lastSet {l : Logger} {calls : List Setting} {filter : Option Level}
    (h : LastSet l.filter calls filter) : (l.run calls).filter = filter := by
  rcases h with ⟨rfl, none⟩ | ⟨earlier, c, later, rfl, sets, others⟩
  · exact filter_run_of_not_sets none
  · calc (l.run (earlier ++ c :: later)).filter
      _ = (((l.run earlier).apply c).run later).filter := by rw [run_append, run_cons]
      _ = ((l.run earlier).apply c).filter := filter_run_of_not_sets others
      _ = filter := by rw [apply_of_sets sets]

theorem filter_run_iff {l : Logger} {calls : List Setting} {filter : Option Level} :
    (l.run calls).filter = filter ↔ LastSet l.filter calls filter := by
  refine ⟨?_, filter_run_of_lastSet⟩
  rintro rfl
  obtain ⟨filter, last⟩ := exists_lastSet l.filter calls
  rwa [filter_run_of_lastSet last]

/-! ## What is printed -/

theorem enabled_iff {l : Logger} {level : Level} :
    l.enabled level ↔ ∃ least, l.filter = some least ∧ level.rank ≤ least.rank := by
  rw [enabled]
  cases l.filter <;> simp

/-- The session after the logger has printed a record. -/
def printing (l : Logger) (level : Level) (target message : String) (s : Session) : Session :=
  { s with notes := s.notes.push (.line (l.line level target message)) }

theorem printing_ne (l : Logger) (level : Level) (target message : String) (s : Session) :
    l.printing level target message s ≠ s := by
  intro same
  have size := congrArg (fun s : Session => s.notes.size) same
  rw [printing, Array.size_push] at size
  omega

theorem run_log_eq_printing_iff {l : Logger} {level : Level} {target : String}
    {message : Unit → String} {s : Session} :
    ((Exec.log level target message).run l).run s =
        .ok () (l.printing level target (message ()) s) ↔ l.enabled level := by
  rw [Exec.run_log]
  by_cases enabled : l.enabled level
  · rw [if_pos enabled]
    exact iff_of_true rfl enabled
  · rw [if_neg enabled]
    refine iff_of_false (fun same => ?_) enabled
    exact l.printing_ne level target (message ()) s (EStateM.Result.ok.inj same).2.symm

theorem run_log_eq_iff {l : Logger} {level : Level} {target : String} {message : Unit → String}
    {s : Session} :
    ((Exec.log level target message).run l).run s = .ok () s ↔ ¬ l.enabled level := by
  rw [Exec.run_log]
  by_cases enabled : l.enabled level
  · rw [if_pos enabled]
    refine iff_of_false (fun same => ?_) (not_not_intro enabled)
    exact l.printing_ne level target (message ()) s (EStateM.Result.ok.inj same).2
  · rw [if_neg enabled]
    exact iff_of_true rfl enabled

end Logger

namespace LogState

open Logger (Setting)

/-! ## Counts of levels

The state of a process keeps a logger. Its count gives the filter back, and calls change it as they change
the logger.
-/

theorem level?_keep (l : Logger) : l.keep.level? = l.filter := by
  obtain ⟨_ | level, color⟩ := l
  · rfl
  · cases level <;> rfl

theorem logger_keep (l : Logger) : l.keep.logger = l := by
  rw [logger, level?_keep]
  rfl

/-- Levels compare with the count as they do with the filter. -/
theorem enabled_keep (l : Logger) (level : Level) : l.keep.enabled level = l.enabled level := by
  obtain ⟨_ | least, color⟩ := l
  · cases level <;> rfl
  · cases least <;> cases level <;> rfl

theorem setFilter_keep (l : Logger) (text : String) :
    l.keep.setFilter text = (l.setFilter text).map Logger.keep := by
  rw [setFilter, Logger.setFilter]
  rcases Level.parseFilter text with e | (_ | level) <;> rfl

/-- The state after a call. A text that is refused leaves it as it is. -/
def apply (s : LogState) : Setting → LogState
  | .level level => s.setLevel level
  | .disable => s.disable
  | .color on => s.setColor on
  | .text text =>
      match s.setFilter text with
      | .ok s' => s'
      | .error _ => s

/-- The state after calls, in their order. -/
def run (s : LogState) (calls : List Setting) : LogState := calls.foldl apply s

theorem apply_keep (l : Logger) (c : Setting) : l.keep.apply c = (l.apply c).keep := by
  cases c with
  | level level => rfl
  | disable => rfl
  | color on => rfl
  | text text =>
    rw [apply, Logger.apply, setFilter_keep]
    cases l.setFilter text <;> rfl

theorem run_keep (l : Logger) (calls : List Setting) : l.keep.run calls = (l.run calls).keep := by
  induction calls generalizing l with
  | nil => rfl
  | cons c rest ih =>
    calc l.keep.run (c :: rest)
      _ = (l.keep.apply c).run rest := List.foldl_cons ..
      _ = (l.apply c).keep.run rest := by rw [apply_keep]
      _ = (l.run (c :: rest)).keep := ih (l.apply c)

theorem setFilter_keep_eq_ok_iff {l : Logger} {text : String} {s : LogState} :
    l.keep.setFilter text = .ok s ↔
      ∃ filter, Level.Names text filter ∧ s = Logger.keep { l with filter := filter } := by
  rw [setFilter_keep]
  constructor
  · intro set
    cases h : l.setFilter text with
    | error e =>
      rw [h] at set
      cases set
    | ok l' =>
      rw [h] at set
      obtain ⟨filter, names, rfl⟩ := Logger.setFilter_eq_ok_iff.1 h
      exact ⟨filter, names, (Except.ok.inj set).symm⟩
  · rintro ⟨filter, names, rfl⟩
    rw [Logger.setFilter_eq_ok_iff.2 ⟨filter, names, rfl⟩]
    rfl

theorem setFilter_keep_eq_error_iff {l : Logger} {text : String} {e : LevelError} :
    l.keep.setFilter text = .error e ↔ e = ⟨text⟩ ∧ ∀ filter, ¬ Level.Names text filter := by
  rw [← Logger.setFilter_eq_error_iff (l := l), setFilter_keep]
  cases l.setFilter text with
  | ok l' => exact iff_of_false nofun nofun
  | error e' => exact ⟨fun h => congrArg _ (Except.error.inj h), fun h => congrArg _ (Except.error.inj h)⟩

/-- After any calls the filter is the one set last, or that at the start. A text sets the filter that it
names and nothing else; one that names none is refused, told, and changes nothing. A record is printed if
it is at least as severe as the filter, and otherwise nothing happens. -/
theorem run_obeys_last_setting (start : Logger) (calls : List Setting) :
    (∀ filter, (start.keep.run calls).level? = filter ↔
        Logger.LastSet start.filter calls filter) ∧
      (∀ text s, (start.keep.run calls).setFilter text = .ok s ↔
        ∃ filter, Level.Names text filter ∧
          s = Logger.keep { (start.keep.run calls).logger with filter := filter }) ∧
      (∀ text e, (start.keep.run calls).setFilter text = .error e ↔
        e = ⟨text⟩ ∧ ∀ filter, ¬ Level.Names text filter) ∧
      (∀ text, (∃ filter, Level.Names text filter) ∨
        start.keep.run (calls ++ [.text text]) = start.keep.run calls) ∧
      (∀ level, (start.keep.run calls).enabled level ↔
        ∃ least, (start.keep.run calls).level? = some least ∧ level.rank ≤ least.rank) ∧
      ∀ level target message s,
        (((Exec.log level target message).run (start.keep.run calls).logger).run s =
            .ok () ((start.keep.run calls).logger.printing level target (message ()) s) ↔
          (start.keep.run calls).enabled level) ∧
        (((Exec.log level target message).run (start.keep.run calls).logger).run s = .ok () s ↔
          ¬ (start.keep.run calls).enabled level) := by
  simp only [run_keep, level?_keep, enabled_keep, logger_keep]
  refine ⟨fun filter => Logger.filter_run_iff, fun text s => setFilter_keep_eq_ok_iff,
    fun text e => setFilter_keep_eq_error_iff, fun text => ?_, fun level => Logger.enabled_iff,
    fun level target message s => ⟨Logger.run_log_eq_printing_iff, Logger.run_log_eq_iff⟩⟩
  rw [or_iff_not_imp_left, not_exists]
  intro refused
  rw [Logger.run_concat, Logger.apply_text_of_refused refused]

example : run (Logger.keep ⟨some .warn, false⟩) [.text " Debug\u2003", .color true, .text "loud"] =
    Logger.keep ⟨some .debug, true⟩ := by decide

end LogState

end TypeContracts
