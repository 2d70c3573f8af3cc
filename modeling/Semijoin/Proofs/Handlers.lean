import Mathlib.Tactic.SplitIfs
import Semijoin.Logging.Setup

/-!
# Handlers in place

The log can be set up any number of times, and a setup can be refused when the old handlers are down
and the new ones are not in place yet. The handlers in place are always ones that the last setup has
made, so the next one finds all of them.
-/

namespace Semijoin.Logging

/-- The rank that a record must have under a threshold; without one it is that of the
surroundings. -/
def leastRank (threshold : Nat) : Int :=
  if threshold = 0 then Level.warning.rank else threshold

namespace Hub

variable {Fault : Type} {hub hub' hub'' : Hub} {openFile : Text → Except Fault Unit}
  {config : LoggingConfig} {rank : Nat} {name : Text}

/-! ## Bookkeeping -/

/-- Every handler in place is one that the last setup has made, and identities are drawn from a
supply. -/
structure Tracked (hub : Hub) : Prop where
  inPlace : ∀ h ∈ hub.handlers, ∃ target, (h.id, target) ∈ hub.installed
  below : ∀ i ∈ hub.installed, i.1 < hub.nextHandler

theorem Tracked.id_lt (h : hub.Tracked) {handler : Handler} (hmem : handler ∈ hub.handlers) :
    handler.id < hub.nextHandler := by
  obtain ⟨target, htarget⟩ := h.inPlace handler hmem
  exact h.below _ htarget

/-- A setup finds all old handlers. -/
theorem Tracked.handlers_takeDown (h : hub.Tracked) : hub.takeDown.handlers = [] := by
  simp only [takeDown, List.filter_eq_nil_iff, Bool.not_eq_true', Bool.not_eq_false,
    List.any_eq_true, decide_eq_true_eq]
  intro handler hmem
  obtain ⟨target, htarget⟩ := h.inPlace handler hmem
  exact ⟨_, htarget, rfl⟩

/-- Nothing has been set up in between: at most there are more loggers, decisions have been made and
a record has been reported as unhandled. -/
structure Kept (hub hub' : Hub) : Prop where
  handlers : hub'.handlers = hub.handlers
  installed : hub'.installed = hub.installed
  nextHandler : hub'.nextHandler = hub.nextHandler
  threshold : hub'.threshold = hub.threshold
  propagates : hub'.propagates = hub.propagates
  lastResort : hub'.lastResort = hub.lastResort

theorem Kept.trans (h : Kept hub hub') (h' : Kept hub' hub'') : Kept hub hub'' where
  handlers := h'.handlers.trans h.handlers
  installed := h'.installed.trans h.installed
  nextHandler := h'.nextHandler.trans h.nextHandler
  threshold := h'.threshold.trans h.threshold
  propagates := h'.propagates.trans h.propagates
  lastResort := h'.lastResort.trans h.lastResort

theorem kept_register : Kept hub (hub.register name) := by
  unfold register
  split <;> constructor <;> rfl

theorem kept_asked (r : Record) : Kept hub (hub.asked r) :=
  kept_register.trans (by constructor <;> rfl)

theorem kept_leave (r : Record) : Kept hub (hub.leave r).2 := by
  unfold leave
  split
  · split <;> constructor <;> rfl
  · split_ifs <;> constructor <;> rfl

theorem kept_log (r : Record) : Kept hub (hub.log r).2 := by
  refine (kept_asked r).trans ?_
  unfold log
  dsimp only
  split_ifs
  · constructor <;> rfl
  · exact kept_leave r
  · constructor <;> rfl

theorem Tracked.kept (h : hub.Tracked) (hkept : Kept hub hub') : hub'.Tracked where
  inPlace := by
    rw [hkept.handlers, hkept.installed]
    exact h.inPlace
  below := by
    rw [hkept.installed, hkept.nextHandler]
    exact h.below

/-! ## One setup -/

theorem mem_loggers_register_iff {other : Text} :
    other ∈ (hub.register name).loggers ↔ other = name ∨ other ∈ hub.loggers := by
  unfold register
  split
  · next h =>
    refine ⟨.inr, fun hor => hor.elim (fun heq => heq ▸ ?_) id⟩
    simpa using h
  · exact List.mem_cons

/-- The loggers when a setup has made its handlers and none of them is in place: they are remembered
under identities from `first` on. -/
structure Made (first : Nat) (path : Option Text) (hub : Hub) : Prop where
  handlers : hub.handlers = []
  installed : hub.installed =
    (first, .console) :: (path.map fun path => (first + 1, Target.file path)).toList
  nextHandler : hub.nextHandler = first + hub.installed.length
  root : (rootName : Text) ∈ hub.loggers

theorem Tracked.made_renewed (h : hub.Tracked) : hub.renewed.Made hub.nextHandler none := by
  have hnext : (hub.register rootName).nextHandler = hub.nextHandler := kept_register.nextHandler
  constructor
  · exact (h.kept kept_register).handlers_takeDown
  · simp [renewed, make, takeDown, hnext]
  · simp [renewed, make, takeDown, hnext]
  · exact mem_loggers_register_iff.mpr (.inl rfl)

theorem Made.make {first : Nat} (h : hub.Made first none) (path : Text) :
    (hub.make (.file path)).Made first (some path) := by
  have hinstalled : hub.installed = [(first, .console)] := h.installed
  have hnext : hub.nextHandler = first + 1 := by rw [h.nextHandler, hinstalled]; rfl
  constructor
  · exact h.handlers
  · simp [Hub.make, hinstalled, hnext]
  · simp [Hub.make, hinstalled, hnext]
  · exact h.root

theorem Made.makeFile {first : Nat} {path : Option Text} (h : hub.Made first none)
    (hmade : hub.makeFile openFile path = .ok hub') : hub'.Made first path := by
  cases path with
  | none => exact Except.ok.inj hmade ▸ h
  | some path =>
    rw [Hub.makeFile] at hmade
    cases hopen : openFile path with
    | error e => rw [hopen] at hmade; cases hmade
    | ok =>
      rw [hopen] at hmade
      exact Except.ok.inj hmade ▸ h.make path

theorem Made.below {first : Nat} {path : Option Text} (h : hub.Made first path) :
    ∀ i ∈ hub.installed, i.1 < hub.nextHandler := by
  rw [h.nextHandler, h.installed]
  cases path <;> simp

theorem Made.tracked {first : Nat} {path : Option Text} (h : hub.Made first path) :
    hub.Tracked where
  inPlace := by simp [h.handlers]
  below := h.below

/-- The handlers that a configuration asks for, with identities from `first` on. -/
def requestedHandlers (config : LoggingConfig) (rank first : Nat) : List Handler :=
  ⟨first, .console, rank, requestedLayout config⟩ ::
    ((requestedPath? config).map fun path =>
      ⟨first + 1, .file path, rank, requestedLayout config⟩).toList

/-- What a setup that returned leaves behind: the handlers and the threshold that were asked for,
and no decision about records. -/
structure Fresh (config : LoggingConfig) (rank first : Nat) (hub : Hub) : Prop where
  handlers : hub.handlers = requestedHandlers config rank first
  threshold : hub.threshold = rank
  propagates : hub.propagates = false
  root : (rootName : Text) ∈ hub.loggers
  decisions : hub.decisions = []

theorem Made.fresh {first : Nat} (h : hub.Made first (requestedPath? config)) :
    (hub.putUp rank (requestedLayout config)).Fresh config rank first where
  handlers := by
    rw [putUp, h.handlers, h.installed, requestedHandlers]
    cases requestedPath? config <;> rfl
  threshold := rfl
  propagates := rfl
  root := h.root
  decisions := rfl

theorem Made.tracked_putUp {first : Nat} {path : Option Text} (h : hub.Made first path)
    (rank : Nat) (layout : Layout) : (hub.putUp rank layout).Tracked where
  inPlace := by
    simp only [putUp, h.handlers, List.nil_append, List.mem_map]
    rintro _ ⟨⟨id, target⟩, hmem, rfl⟩
    exact ⟨target, hmem⟩
  below := h.below

/-- A setup returns with what was asked for in place, or it is refused and no handler is left. -/
inductive SetupCase (config : LoggingConfig) (first : Nat) :
    Except (SetupError Fault) Unit × Hub → Prop where
  | refused {e : SetupError Fault} {path : Option Text} {hub : Hub} (h : hub.Made first path) :
      SetupCase config first (.error e, hub)
  | returned {rank : Nat} {hub : Hub} (hrank : rankNamed config.level = .ok rank)
      (h : hub.Made first (requestedPath? config)) :
      SetupCase config first (.ok (), hub.putUp rank (requestedLayout config))

theorem Tracked.setup_cases (h : hub.Tracked) (openFile : Text → Except Fault Unit)
    (config : LoggingConfig) :
    SetupCase config hub.nextHandler (hub.setup openFile config) := by
  have hrenewed := h.made_renewed
  unfold Hub.setup
  dsimp only
  cases hmade : hub.renewed.makeFile openFile (requestedPath? config) with
  | error e => exact .refused hrenewed
  | ok hub =>
    have hmade := hrenewed.makeFile hmade
    cases hrank : rankNamed config.level with
    | error e => exact .refused hmade
    | ok rank => exact .returned hrank hmade

theorem Tracked.setup (h : hub.Tracked) (openFile : Text → Except Fault Unit)
    (config : LoggingConfig) : (hub.setup openFile config).2.Tracked := by
  have hcase := h.setup_cases openFile config
  generalize hub.setup openFile config = result at hcase
  cases hcase with
  | refused hmade => exact hmade.tracked
  | returned _ hmade => exact hmade.tracked_putUp _ _

theorem Tracked.nextHandler_le_setup (h : hub.Tracked) (openFile : Text → Except Fault Unit)
    (config : LoggingConfig) : hub.nextHandler ≤ (hub.setup openFile config).2.nextHandler := by
  have hcase := h.setup_cases openFile config
  generalize hub.setup openFile config = result at hcase
  cases hcase with
  | refused hmade | returned _ hmade => exact hmade.nextHandler ▸ Nat.le_add_right _ _

theorem Tracked.handlers_of_refused (h : hub.Tracked) {e : SetupError Fault}
    (he : (hub.setup openFile config).1 = .error e) :
    (hub.setup openFile config).2.handlers = [] := by
  have hcase := h.setup_cases openFile config
  generalize hub.setup openFile config = result at hcase he ⊢
  cases hcase with
  | refused hmade => exact hmade.handlers
  | returned => cases he

theorem Tracked.fresh_of_returned (h : hub.Tracked)
    (hok : (hub.setup openFile config).1 = .ok ()) :
    ∃ rank, rankNamed config.level = .ok rank ∧
      (hub.setup openFile config).2.Fresh config rank hub.nextHandler := by
  have hcase := h.setup_cases openFile config
  generalize hub.setup openFile config = result at hcase hok ⊢
  cases hcase with
  | refused => cases hok
  | returned hrank hmade => exact ⟨_, hrank, hmade.fresh⟩

end Hub

end Semijoin.Logging
