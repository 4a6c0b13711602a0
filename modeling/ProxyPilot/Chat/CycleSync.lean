import ProxyPilot.Chat.Uncertain

namespace ProxyPilot.Chat.Uncertain

open Data

/-! # What a cycle row means for its task (`task-sync.js`) -/

structure Step where
  step : String
  verified : Bool

def trimmed (text : String) : String := String.ofList (trim text.toList)

section

-- `sanitize`: `sanitizeTaskText`; `haltReasonLabel`: the words for a halt reason
variable (sanitize : Nat → String → String) (haltReasonLabel : String → String)

end

variable {sanitize : Nat → String → String} {haltReasonLabel : String → String}

def note (seq : Nat) : Event := ⟨seq, .other "note", "", ⟨"", none, none⟩⟩

end ProxyPilot.Chat.Uncertain
