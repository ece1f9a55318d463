import Sitewright.Error
import Sitewright.Text.Case
import Sitewright.Text.Words
import Sitewright.Time.DateTime

namespace Sitewright

/-- A document that is handed out as it stands in its file: the length of the file in bytes, and
when it was last changed. -/
structure FixedDocument where
  length : Int
  modified : Time.DateTime
  deriving DecidableEq, Repr

structure Settings where
  requireAuth : Bool := false
  historyLimit : Int := 50
  /-- The day that completes dates in requests which leave parts out. -/
  today : Time.DateTime := { year := 2026, month := 11, day := 18 }
  /-- The description of the service. -/
  description : FixedDocument :=
    { length := 8478
      modified :=
        { year := 2026, month := 11, day := 18, hour := 22, minute := 24, second := 32
          offset := some 0 } }
  deriving DecidableEq, Repr

namespace Settings

def flag (s : String) : Bool := ["1", "true", "yes", "on"].contains (Text.lower (Text.trim s))

def check (settings : Settings) : Except Error Unit :=
  if settings.historyLimit < 1 then .error .configuredLimitTooLow else .ok ()

end Settings

end Sitewright
