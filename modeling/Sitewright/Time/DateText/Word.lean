import Sitewright.Text.Case

namespace Sitewright.Time.DateText

def indexOf? (names : List (List String)) (token : String) : Option Nat :=
  names.findIdx? (·.contains (Text.lower token))

def weekday? : String → Option Nat := indexOf?
  [["mon", "monday"], ["tue", "tuesday"], ["wed", "wednesday"], ["thu", "thursday"],
   ["fri", "friday"], ["sat", "saturday"], ["sun", "sunday"]]

def month? (token : String) : Option Nat :=
  (indexOf?
    [["jan", "january"], ["feb", "february"], ["mar", "march"], ["apr", "april"], ["may"],
     ["jun", "june"], ["jul", "july"], ["aug", "august"], ["sep", "sept", "september"],
     ["oct", "october"], ["nov", "november"], ["dec", "december"]] token).map (· + 1)

def unit? : String → Option Nat := indexOf?
  [["h", "hour", "hours"], ["m", "minute", "minutes"], ["s", "second", "seconds"]]

def half? : String → Option Nat := indexOf? [["am", "a"], ["pm", "p"]]

def isJump (token : String) : Bool :=
  [" ", ".", ",", ";", "-", "/", "'", "at", "on", "and", "ad", "m", "t", "of", "st", "nd", "rd",
   "th"].contains (Text.lower token)

/-- Words that read as values that are no numbers. -/
def isNoNumber (token : String) : Bool := ["nan", "inf", "infinity"].contains (Text.lower token)

def isUniversal (token : String) : Bool := ["utc", "gmt", "z"].contains (Text.lower token)

end Sitewright.Time.DateText
