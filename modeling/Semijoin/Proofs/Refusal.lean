import Semijoin.Proofs.Dispatch

/-!
# Setups that are refused

Whether a name stands for a level is found out when the old handlers are down already. A setup with
one of the two names that do not is refused with nothing in place of what it has taken down. From
then on records are left to the last resort: no file gets them and no layout that was asked for.
-/

namespace Semijoin.Logging

namespace Hub

variable {Fault : Type} {hub : Hub} {openFile : Text → Except Fault Unit} {config : LoggingConfig}

/-- What a setup keeps until it puts its handlers in place. -/
structure Left (hub hub' : Hub) : Prop where
  threshold : hub'.threshold = hub.threshold
  propagates : hub'.propagates = hub.propagates
  lastResort : hub'.lastResort = hub.lastResort

theorem Left.makeFile {hub' hub'' : Hub} {path : Option Text} (h : Left hub hub')
    (hmade : hub'.makeFile openFile path = .ok hub'') : Left hub hub'' := by
  cases path with
  | none => exact Except.ok.inj hmade ▸ h
  | some path =>
    rw [Hub.makeFile] at hmade
    cases hopen : openFile path with
    | error e => rw [hopen] at hmade; cases hmade
    | ok =>
      rw [hopen] at hmade
      exact Except.ok.inj hmade ▸ ⟨h.threshold, h.propagates, h.lastResort⟩

end Hub

end Semijoin.Logging
