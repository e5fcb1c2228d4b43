/-
What the parts of a site do to the ledger that its quota plugins share: nothing, but for the quota
plugins themselves.
-/
import JobAdmission.Proofs.Plugin.Kept
import JobAdmission.Site

namespace JobAdmission.Site

theorem lawful_sharedLedger : sharedLedger.Lawful := fun _ _ => rfl

/-- Acting on another part keeps the ledger, if writing the part does. -/
theorem kept_act {S α : Type} {part : Slot Site S}
    (h : ∀ p site, (part.set p site).ledger = site.ledger) (f : S → α × S) :
    sharedLedger.Kept (part.act f) := fun site => h _ site

theorem kept_read (ns name : String) : sharedLedger.Kept (read ns name) := by
  intro site
  unfold read
  split <;> rfl

theorem kept_write (j : Job) : sharedLedger.Kept (write j) := fun _ => rfl

theorem kept_gate {α : Type} (f : GateBook → α × GateBook) : sharedLedger.Kept (gateSlot.act f) :=
  kept_act (fun _ _ => rfl) f

end JobAdmission.Site
