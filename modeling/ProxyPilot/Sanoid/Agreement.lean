import ProxyPilot.Sanoid.Sections

namespace ProxyPilot.Sanoid

/-- The guest that lives on a dataset, as the page finds it. -/
def guestOf (guestDatasets : List GuestDataset) (name : Text) : Option Text :=
  (guestDatasets.find? fun g => g.dataset == name).map GuestDataset.guest

/-- Without a section a dataset has no snapshots to keep. -/
def Agrees : Option Settings → Effective → Prop
  | none, page => page.retention = none
  | some given, page => page.enabled = some given.enabled ∧ page.retention = some given.retention

section

variable (policy : Policy) (managed : Managed) (guestDatasets : List GuestDataset) (name : Text)

def shown : Effective := effectiveRetention name (some managed) policy (guestOf guestDatasets name)

variable {root : PolicyClass} {written : Option GuestOverride} {ov : DatasetOverride}

end

def web : Text := "tank/incus/containers/web".toList

def guests : List GuestDataset := [⟨"web".toList, web⟩]

def count (n : Nat) : Option Int := some n

end ProxyPilot.Sanoid
