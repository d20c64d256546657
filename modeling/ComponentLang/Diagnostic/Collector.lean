import ComponentLang.Options.Basic

namespace ComponentLang

/-- Collects diagnostics up to a limit. Those that come first are kept. -/
structure DiagnosticCollector where
  limit : Option Nat := none
  /-- What was kept, latest first. -/
  kept : List Diagnostic := []
  dropped : Nat := 0
  deriving DecidableEq, Repr

namespace DiagnosticCollector

def limited (options : Options) : DiagnosticCollector where
  limit := some options.maxDiagnostics

def size (collector : DiagnosticCollector) : Nat :=
  collector.kept.length

/-- How many diagnostics were reported, kept or not. -/
def received (collector : DiagnosticCollector) : Nat :=
  collector.size + collector.dropped

def isFull (collector : DiagnosticCollector) : Bool :=
  collector.limit.any fun limit => limit ≤ collector.size

def report (collector : DiagnosticCollector) (diagnostic : Diagnostic) :
    DiagnosticCollector :=
  if collector.isFull then { collector with dropped := collector.dropped + 1 }
  else { collector with kept := diagnostic :: collector.kept }

def toList (collector : DiagnosticCollector) : List Diagnostic :=
  collector.kept.reverse

def hasErrors (collector : DiagnosticCollector) : Bool :=
  collector.kept.any Diagnostic.isError

def ofSeverity (collector : DiagnosticCollector) (severity : Severity) :
    List Diagnostic :=
  collector.toList.filter fun diagnostic => diagnostic.severity == severity

/-- A limit keeps the diagnostics that come first. -/
theorem toList_foldl_report (limit : Nat) (diagnostics : List Diagnostic) :
    (diagnostics.foldl report { limit := some limit }).toList =
      diagnostics.take limit := by
  suffices general : ∀ kept dropped, kept.length ≤ limit →
      (diagnostics.foldl report ⟨some limit, kept, dropped⟩).toList =
        kept.reverse ++ diagnostics.take (limit - kept.length) by
    simpa using general [] 0 (Nat.zero_le limit)
  induction diagnostics with
  | nil => simp [toList]
  | cons diagnostic rest induction =>
      intro kept dropped fits
      rw [List.foldl_cons]
      by_cases full : isFull ⟨some limit, kept, dropped⟩
      · have reached : limit ≤ kept.length := of_decide_eq_true full
        rw [report, if_pos full, induction kept (dropped + 1) fits,
          Nat.sub_eq_zero_of_le reached]
        simp
      · have room : kept.length < limit :=
          Nat.lt_of_not_le fun reached => full (decide_eq_true reached)
        rw [report, if_neg full, induction (diagnostic :: kept) dropped room,
          List.length_cons, ← Nat.succ_pred_eq_of_pos (Nat.sub_pos_of_lt room)]
        simp [Nat.sub_add_eq]

end DiagnosticCollector

end ComponentLang
