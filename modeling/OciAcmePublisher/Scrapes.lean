import OciAcmePublisher.DurableFiles
import OciAcmePublisher.Effects.Concurrency
import OciAcmePublisher.MetricGrammar

/-!
# Scrapes

What the processes of the publisher write to a metrics textfile: `collect_metrics` after a command that mutates, and
`collect_read_only_metrics` on its own. They may run at the same time; each has a process number, and a temporary file under it.
-/

namespace OciAcmePublisher

open Effects DurableFiles

/-! ## What is collected -/

/-- `collect_read_only_metrics`, for a database that does not exist, cannot be opened, or is read. -/
def collectReadOnlyMetrics (config : AppConfig) (database : Option (Except Exc Database))
    (daysRemaining : CertificateConfig → Option Rat) :
    List Metric :=
  let unavailable : List Metric := [⟨"oci_acme_state_available", some 0, []⟩,
    ⟨"oci_acme_compatibility_gate", some (if config.compatibility.liveVerified then 1 else 0), []⟩]
  match database with
  | none => unavailable
  | some (.error _) => unavailable
  | some (.ok db) => ⟨"oci_acme_state_available", some 1, []⟩ :: Metrics.collectMetrics config db daysRemaining

/-- What one process collects. -/
inductive Scrape where
  | configured (config : AppConfig) (db : Database) (daysRemaining : CertificateConfig → Option Rat)
  | readOnly (config : AppConfig) (database : Option (Except Exc Database)) (daysRemaining : CertificateConfig → Option Rat)

def Scrape.metrics : Scrape → List Metric
  | .configured config db daysRemaining => Metrics.collectMetrics config db daysRemaining
  | .readOnly config database daysRemaining => collectReadOnlyMetrics config database daysRemaining

/-! ## The processes -/

/-- The temporary file of a process. -/
def temporaryOf (path : String) (pid : Nat) : String := withName path ("." ++ fileName path ++ "." ++ toString pid ++ ".tmp")

/-- `os.getpid()` answers with the number of the process. -/
def OwnPid (pid : Nat) : (op : FileCall) → Except Exc (fileCalls.Reply op) → Prop
  | .getpid, .ok n => n = pid
  | _, _ => True

/-- A process that writes its scrape to the textfile. -/
structure Scraper where
  pid : Nat
  str : Metric → NumberText
  scrape : Scrape

variable {ι : Type} [DecidableEq ι]

/-- The processes on one file system. Outside of them the textfile and the temporary files of any process are left alone. -/
def scrapers (short : ShortWrites) (path : String) (processes : ι → Scraper) : Pool.Setting ι fileCalls Exc Unit Disk where
  env i d op answer d' := DurableFiles.fileSystem short d op answer d' ∧ OwnPid (processes i).pid op answer
  leaves _ d := d
  outside d d' := d'.files path = d.files path ∧ ∀ pid, d'.files (temporaryOf path pid) = d.files (temporaryOf path pid)
  programs i := writeMetrics (processes i).str path (processes i).scrape.metrics

/-- Processes that run at the same time have different numbers. -/
def NumberedApart (processes : ι → Scraper) (s : Pool ι fileCalls Exc Unit Disk) : Prop :=
  ∀ i j p q, i ≠ j → s.status i = .running p → s.status j = .running q → (processes i).pid ≠ (processes j).pid

/-! ## What a collector reads -/

/-- The lines up to the end of the text. -/
def sampleLines : Nat → List Char → Option (List (String × List (String × String) × String))
  | _, [] => some []
  | 0, _ :: _ => none
  | n + 1, c :: l => do
    let (sample, rest) ← MetricGrammar.sampleLine.run (c :: l)
    let samples ← sampleLines n rest
    return sample :: samples

/-- The samples of a textfile: their names, their labels and the texts of their values. -/
def readTextfile (content : Bytes) : Option (List (String × List (String × String) × String)) := do
  let text ← String.fromUTF8? ⟨content.toArray⟩
  sampleLines text.length text.toList

/-- What a textfile is to say of a scrape. -/
def Scraper.samples (process : Scraper) : List (String × List (String × String) × String) :=
  process.scrape.metrics.map fun metric => (metric.name, metric.labels, (process.str metric).1)

end OciAcmePublisher
