import TimeSeries.Store.Frozen
import TimeSeries.Text.Blank

/-!
# Settings of a manager

A manager names its chunks after a dataset, cuts time into windows of one length, and keeps frozen
stores in one form.
-/

namespace TimeSeries

/-- The settings of a manager of chunks. -/
structure ManagerSettings where
  dataset : String := "metrics"
  windowSeconds : Int := 7200
  form : FrozenForm := {}
  deriving DecidableEq, Repr

namespace ManagerSettings

/-- Whether there is something other than a directory at the place for the files. -/
def spoilsDirectory (s : ManagerSettings) (disk : Disk) : Option Path :=
  s.form.directory.filter fun dir => disk.exists? dir.steps && !disk.isDirectory dir.steps

/-- Accepts settings that a manager can work with. -/
def validate (s : ManagerSettings) (disk : Disk) : Except Error Unit :=
  if s.dataset.isEmpty || Text.hasBlank s.dataset then .error (.misconfigured (.dataset s.dataset))
  else if s.windowSeconds ≤ 0 then .error (.misconfigured (.chunkDuration s.windowSeconds))
  else
    match s.spoilsDirectory disk with
    | some dir => .error (.misconfigured (.spillPath dir.text))
    | none => .ok ()

end ManagerSettings

end TimeSeries
