import Semijoin.Proofs.Handlers
import Semijoin.Proofs.Hierarchy

/-!
# What becomes of records

After any history of setups and uses of loggers, a record gets to the handlers of the last setup,
once to each of them, if its level reaches the threshold. What has been decided about earlier
records does not get in the way, because a setup that returns starts all decisions anew.
-/

namespace Semijoin.Logging

namespace Hub

variable {Fault : Type} {hub : Hub} {config : LoggingConfig} {rank : Nat} {name : Text}

/-! ## Records after a setup -/

/-- The root is there with its threshold, and what has been decided about nested names is what the
threshold says. -/
structure Standing (rank : Nat) (hub : Hub) : Prop where
  threshold : hub.threshold = rank
  root : (rootName : Text) ∈ hub.loggers
  decisions : ∀ name level known, Hierarchy.Nested name →
    hub.decisions.lookup (name, level) = some known → known = decide (leastRank rank ≤ level.rank)

theorem Fresh.standing {first : Nat} (h : hub.Fresh config rank first) : hub.Standing rank where
  threshold := h.threshold
  root := h.root
  decisions := by simp [h.decisions]

theorem le_leastRank (rank : Nat) : rank ≤ leastRank rank := by
  unfold leastRank
  split
  · next h => simp [h, Level.warning]
  · exact Int.le_refl _

theorem Standing.effectiveThreshold_eq (h : hub.Standing rank) (hname : Hierarchy.Nested name) :
    hub.effectiveThreshold name = leastRank rank := by
  have hbelow := Hierarchy.isBelowRoot_of_nested h.root hname
  unfold effectiveThreshold leastRank
  by_cases hrank : rank = 0 <;> simp [hbelow, h.threshold, hrank]

theorem Standing.isEnabled (h : hub.Standing rank) (hname : Hierarchy.Nested name)
    (level : Level) : hub.isEnabled name level = decide (leastRank rank ≤ level.rank) := by
  unfold Hub.isEnabled
  split
  · next known hknown => exact h.decisions _ _ _ hname hknown
  · rw [h.effectiveThreshold_eq hname]

theorem Standing.register (h : hub.Standing rank) : (hub.register name).Standing rank where
  threshold := kept_register.threshold.trans h.threshold
  root := mem_loggers_register_iff.mpr (.inr h.root)
  decisions := by
    have hdecisions : (hub.register name).decisions = hub.decisions := by
      unfold Hub.register
      split <;> rfl
    rw [hdecisions]
    exact h.decisions

theorem Standing.remember (h : hub.Standing rank) (level : Level) :
    (hub.remember name level).Standing rank where
  threshold := h.threshold
  root := h.root
  decisions := by
    intro name' level' known hname hknown
    simp only [Hub.remember, List.lookup_cons] at hknown
    split at hknown
    · next heq =>
      obtain ⟨rfl, rfl⟩ := Prod.mk.inj (eq_of_beq heq)
      rw [← Option.some.inj hknown]
      exact h.isEnabled hname level'
    · exact h.decisions _ _ _ hname hknown

theorem Standing.asked (h : hub.Standing rank) (r : Record) : (hub.asked r).Standing rank :=
  h.register.remember r.level

theorem Standing.leave (h : hub.Standing rank) (r : Record) : (hub.leave r).2.Standing rank := by
  unfold Hub.leave
  split
  · split <;> exact h
  · split_ifs
    · exact h
    · exact ⟨h.threshold, h.root, h.decisions⟩

theorem Standing.log (h : hub.Standing rank) (r : Record) : (hub.log r).2.Standing rank := by
  have hasked := h.asked r
  unfold Hub.log
  dsimp only
  split_ifs
  · exact hasked
  · exact hasked.leave r
  · exact hasked

/-- What is written of a record that is laid out on a line: the line on the console, and in the file
if it can be encoded. -/
def written (config : LoggingConfig) (line : Text) : List (Target × Text) :=
  (.console, line ++ "\n") ::
    ((requestedPath? config).filter fun _ => line.string?.isSome).toList.map fun path =>
      (.file path, line ++ "\n")

theorem write?_console {id : Nat} {layout : Layout} {r : Record} {line : Text}
    (hline : layout.line r = .ok line) (hrank : rank ≤ r.level.rank) :
    Handler.write? ⟨id, .console, rank, layout⟩ r = some (.console, line ++ "\n") := by
  simp [Handler.write?, hline, Int.not_lt.mpr hrank]

theorem write?_file {id : Nat} {layout : Layout} {r : Record} {line path : Text}
    (hline : layout.line r = .ok line) (hrank : rank ≤ r.level.rank) :
    Handler.write? ⟨id, .file path, rank, layout⟩ r =
      if line.string?.isSome then some (.file path, line ++ "\n") else none := by
  cases hstring : line.string? with
  | none => simp [Handler.write?, hline, Int.not_lt.mpr hrank, hstring]
  | some s =>
    obtain rfl := Text.ofString_of_string? hstring
    simp [Handler.write?, hline, Int.not_lt.mpr hrank, hstring]

theorem filterMap_write?_requestedHandlers {first : Nat} {r : Record} {line : Text}
    (hline : (requestedLayout config).line r = .ok line) (hrank : rank ≤ r.level.rank) :
    (requestedHandlers config rank first).filterMap (·.write? r) = written config line := by
  unfold requestedHandlers written
  rw [List.filterMap_cons, write?_console hline hrank]
  cases requestedPath? config with
  | none => rfl
  | some path =>
    cases hstring : line.string? <;> simp [write?_file hline hrank, hstring, Option.filter]

/-- A record of a nested logger gets to all handlers if its level reaches the threshold, and nowhere
otherwise. -/
theorem Standing.log_eq (h : hub.Standing rank) {first : Nat}
    (hhandlers : hub.handlers = requestedHandlers config rank first) {r : Record} {line : Text}
    (hname : Hierarchy.Nested r.logger) (hline : (requestedLayout config).line r = .ok line) :
    (hub.log r).1 = if leastRank rank ≤ r.level.rank then written config line else [] := by
  have hasked := h.asked r
  have hbelow := Hierarchy.isBelowRoot_of_nested hasked.root hname
  have hfor : (hub.asked r).handlersFor r.logger = requestedHandlers config rank first := by
    rw [handlersFor, if_pos hbelow, (kept_asked r).handlers, hhandlers]
  unfold Hub.log
  dsimp only
  rw [hasked.isEnabled hname, hfor]
  by_cases hrank : leastRank rank ≤ r.level.rank
  · rw [filterMap_write?_requestedHandlers hline (Int.le_trans (le_leastRank rank) hrank)]
    simp [hrank, requestedHandlers]
  · simp [hrank]

end Hub

/-! ## Histories -/

/-- What is done with loggers once they are set up. -/
inductive Use where
  | getLogger (name : Text)
  | log (r : Record)

/-- What is done with the loggers. Each setup has a system of its own to open its file. -/
inductive Call (Fault : Type) where
  | setUp (openFile : Text → Except Fault Unit) (config : LoggingConfig)
  | use (u : Use)

namespace Hub

variable {Fault : Type} {hub : Hub} {rank : Nat}

def use (hub : Hub) : Use → Hub
  | .getLogger name => hub.register (loggerName name)
  | .log r => (hub.log r).2

def act (hub : Hub) : Call Fault → Hub
  | .setUp openFile config => (hub.setup openFile config).2
  | .use u => hub.use u

/-- The loggers after several calls. -/
def run (hub : Hub) (calls : List (Call Fault)) : Hub := calls.foldl act hub

/-- The loggers after they have been used several times. -/
def uses (hub : Hub) (us : List Use) : Hub := us.foldl use hub

theorem kept_use : (u : Use) → Kept hub (hub.use u)
  | .getLogger _ => kept_register
  | .log r => kept_log r

theorem kept_uses (us : List Use) : Kept hub (hub.uses us) := by
  induction us generalizing hub with
  | nil => exact ⟨rfl, rfl, rfl, rfl, rfl, rfl⟩
  | cons u us ih => exact (kept_use u).trans ih

theorem Standing.uses (h : hub.Standing rank) (us : List Use) : (hub.uses us).Standing rank := by
  induction us generalizing hub with
  | nil => exact h
  | cons u us ih =>
    cases u with
    | getLogger name => exact ih h.register
    | log r => exact ih (h.log r)

theorem Tracked.act (h : hub.Tracked) : (call : Call Fault) → (hub.act call).Tracked
  | .setUp openFile config => h.setup openFile config
  | .use u => h.kept (kept_use u)

theorem Tracked.nextHandler_le_act (h : hub.Tracked) :
    (call : Call Fault) → hub.nextHandler ≤ (hub.act call).nextHandler
  | .setUp openFile config => h.nextHandler_le_setup openFile config
  | .use u => Nat.le_of_eq (kept_use u).nextHandler.symm

theorem Tracked.run (h : hub.Tracked) (calls : List (Call Fault)) : (hub.run calls).Tracked := by
  induction calls generalizing hub with
  | nil => exact h
  | cons call calls ih => exact ih (h.act call)

theorem Tracked.nextHandler_le_run (h : hub.Tracked) (calls : List (Call Fault)) :
    hub.nextHandler ≤ (hub.run calls).nextHandler := by
  induction calls generalizing hub with
  | nil => exact Nat.le_refl _
  | cons call calls ih => exact Nat.le_trans (h.nextHandler_le_act call) (ih (h.act call))

/-- No handler that was in place at some time has an identity that is still to be drawn. -/
theorem Tracked.id_lt_of_earlier (h : hub.Tracked) {earlier calls : List (Call Fault)}
    (hearlier : earlier <+: calls) {handler : Handler}
    (hmem : handler ∈ (hub.run earlier).handlers) : handler.id < (hub.run calls).nextHandler := by
  obtain ⟨later, rfl⟩ := hearlier
  have hlater := (h.run earlier).nextHandler_le_run later
  rw [Hub.run, List.foldl_append]
  exact Nat.lt_of_lt_of_le ((h.run earlier).id_lt hmem) hlater

/-- Nothing has been set up yet. -/
theorem tracked_of_unset (loggers : List Text) (lastResort : Option Level) :
    ({ loggers, lastResort } : Hub).Tracked where
  inPlace := fun _ h => (List.not_mem_nil h).elim
  below := fun _ h => (List.not_mem_nil h).elim

/-- Whatever has been done to loggers of which the one at the top was not set up at first, on a
system that opens files or not: after a setup that returned, that logger has the handlers that were
asked for and no other, the handlers are new, and its threshold is the rank that was asked for;
after one that was refused it has no handler. Using loggers does not change that. A record that can
be laid out is written once by every handler if its level reaches the threshold, and is not written
otherwise, unless its logger has two dots after the root in its name; a line with surrogates does
not get into the file. -/
theorem setup_dispatches (loggers : List Text) (lastResort : Option Level)
    (before : List (Call Fault)) (openFile : Text → Except Fault Unit) (config : LoggingConfig)
    (after : List Use) :
    let start : Hub := { loggers, lastResort }
    let answer := (start.run before).setup openFile config
    let hub := answer.2.uses after
    (∀ e, answer.1 = .error e → hub.handlers = []) ∧
    (answer.1 = .ok () → ∃ rank first, rankNamed config.level = .ok rank ∧
      hub.handlers = requestedHandlers config rank first ∧ hub.threshold = rank ∧
      hub.propagates = false ∧
      (∀ earlier, earlier <+: before → ∀ h ∈ (start.run earlier).handlers, h.id < first) ∧
      ∀ name r line, r.logger = loggerName name → ¬ r.logger.startsWith Hierarchy.twoDots →
        (requestedLayout config).line r = .ok line →
        (hub.log r).1 = if leastRank rank ≤ r.level.rank then written config line else []) := by
  intro start answer hub
  have hstart : start.Tracked := tracked_of_unset loggers lastResort
  have hkept : Kept answer.2 hub := kept_uses after
  refine ⟨fun e he => ?_, fun hok => ?_⟩
  · exact hkept.handlers.trans ((hstart.run before).handlers_of_refused he)
  · obtain ⟨rank, hrank, hfresh⟩ := (hstart.run before).fresh_of_returned hok
    have hhandlers := hkept.handlers.trans hfresh.handlers
    refine ⟨rank, _, hrank, hhandlers, hkept.threshold.trans hfresh.threshold,
      hkept.propagates.trans hfresh.propagates, ?_, ?_⟩
    · exact fun earlier hearlier h hmem => hstart.id_lt_of_earlier hearlier hmem
    · intro name r line hlogger hdots hline
      have hnested : Hierarchy.Nested r.logger := by
        rw [hlogger] at hdots ⊢
        exact Hierarchy.nested_loggerName hdots
      exact (hfresh.standing.uses after).log_eq hhandlers hnested hline

/-- A line is what the layout of a record comes to. -/
theorem line_of_toOption {layout : Layout} {r : Record} {line : Text}
    (h : (layout.line r).toOption = some line) : layout.line r = .ok line := by
  cases hline : layout.line r <;> simp_all [Except.toOption]

/-- A system on which every file can be opened. -/
def openAll (_ : Text) : Except Unit Unit := .ok ()

/-- Warnings on the console and in a file. -/
def warningsToFile : LoggingConfig := { level := "warning", logFile := some "logs/app.log" }

/-- A record of a fault in an application. -/
def faultRecord : Record :=
  { level := .error, logger := loggerName "app", message := "m", time := 0,
    location := ⟨"main", "run", 1⟩ }

def faultLine : Text := "1970-01-01 00:00:00 - relopt.app - ERROR - m"

theorem faultRecord_dispatches :
    let before : List (Call Unit) := [.setUp openAll { level := "DEBUG" }]
    let hub := ((({} : Hub).run before).setup openAll warningsToFile).2.uses [.getLogger "app"]
    hub.threshold = 30 ∧ hub.propagates = false ∧
      (hub.log faultRecord).1 =
        [(.console, faultLine ++ "\n"), (.file "logs/app.log", faultLine ++ "\n")] := by
  intro before hub
  obtain ⟨-, hreturned⟩ :=
    setup_dispatches [] (some .warning) before openAll warningsToFile [.getLogger "app"]
  obtain ⟨rank, first, hrank, -, hthreshold, hpropagates, -, hlog⟩ := hreturned rfl
  obtain rfl : 30 = rank := Except.ok.inj hrank
  have hline : (requestedLayout warningsToFile).line faultRecord = .ok faultLine :=
    line_of_toOption (by decide +kernel)
  refine ⟨hthreshold, hpropagates, ?_⟩
  rw [hlog "app" faultRecord faultLine rfl (by decide) hline]
  decide +kernel

theorem isEnabled_asked (r : Record) : (hub.asked r).isEnabled r.logger r.level =
    (hub.register r.logger).isEnabled r.logger r.level := by
  rw [isEnabled, asked, remember, List.lookup_cons_self]

/-- A logger that does not lead up to the root gets by with nothing below a warning. -/
theorem log_eq_nil {r : Record} (hdecisions : hub.decisions = [])
    (hbelow : Hierarchy.isBelowRoot (hub.register r.logger).loggers r.logger = false)
    (hlevel : r.level.rank < Level.warning.rank) : (hub.log r).1 = [] := by
  have hnone : (hub.register r.logger).decisions = [] := by
    rw [← hdecisions, register]
    split <;> rfl
  have hdisabled : (hub.asked r).isEnabled r.logger r.level = false := by
    rw [isEnabled_asked, isEnabled, hnone, List.lookup_nil]
    simpa [effectiveThreshold, hbelow] using hlevel
  unfold Hub.log
  dsimp only
  simp [hdisabled]

/-- The names that are left out lose records indeed: each does so after a setup for information,
once there is a logger whose name ends with the two dots. -/
theorem exists_lost {name : Text} (h : (loggerName name).startsWith Hierarchy.twoDots) :
    ∃ after : List Use, ∀ r : Record, r.logger = loggerName name →
      r.level.rank < Level.warning.rank →
        (((({} : Hub).setup openAll {}).2.uses after).log r).1 = [] := by
  refine ⟨[.getLogger "."], fun r hlogger hlevel => log_eq_nil rfl ?_ hlevel⟩
  rw [← hlogger] at h
  have hloggers : ((({} : Hub).setup openAll {}).2.uses [.getLogger "."]).loggers =
      [Hierarchy.twoDots, (rootName : Text)] := by decide
  refine Hierarchy.not_isBelowRoot_of_twoDots ?_ ?_ h
  · exact mem_loggers_register_iff.mpr (.inr (by simp [hloggers]))
  · intro l hl
    obtain rfl | hl := mem_loggers_register_iff.mp hl
    · exact .inr h
    · rw [hloggers, List.mem_pair] at hl
      exact hl.elim (fun hdots => .inr (by rw [hdots]; decide)) .inl

/-- A record for information of a logger whose name starts with a dot. -/
def dottedRecord : Record :=
  { level := .info, logger := loggerName ".x", message := "m", time := 0,
    location := ⟨"main", "run", 1⟩ }

theorem dottedRecord_lost :
    (({} : Hub).setup openAll {}).1 = .ok () ∧ (({} : Hub).setup openAll {}).2.threshold = 20 ∧
      leastRank 20 ≤ dottedRecord.level.rank ∧
      (requestedLayout {}).line dottedRecord =
        .ok ("1970-01-01 00:00:00 - relopt..x - INFO - m" : String) ∧
      ((({} : Hub).setup openAll {}).2.log dottedRecord).1 = [] := by
  have hbelow : Hierarchy.isBelowRoot
      ((({} : Hub).setup openAll {}).2.register dottedRecord.logger).loggers
      dottedRecord.logger = false :=
    Hierarchy.isBelowRoot_of_parent?_eq_none (by decide) (by decide)
  exact ⟨rfl, rfl, by decide, line_of_toOption (by decide +kernel),
    log_eq_nil rfl hbelow (by decide)⟩

end Hub

end Semijoin.Logging
