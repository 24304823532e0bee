/-!
# Traces of a labelled relation

`Trace step s labels s'` leads from `s` to `s'` by steps with these labels, in order.  A step that
is described by more than one relation is read in either (`Trace.mono`), and what every step with
the labels of a trace keeps, the trace keeps (`Trace.invariant`).
-/

universe u v

inductive Trace {S : Type u} {L : Type v} (step : S → L → S → Prop) : S → List L → S → Prop
  | nil (s : S) : Trace step s [] s
  | cons {s s' s'' : S} {label : L} {labels : List L} (hstep : step s label s')
      (hrest : Trace step s' labels s'') : Trace step s (label :: labels) s''

namespace Trace

variable {S : Type u} {L : Type v} {step step' : S → L → S → Prop} {s s' s'' : S} {label : L}
  {labels labels' : List L}

theorem single (h : step s label s') : Trace step s [label] s' :=
  .cons h (.nil s')

theorem append (h : Trace step s labels s') (h' : Trace step s' labels' s'') :
    Trace step s (labels ++ labels') s'' := by
  induction h with
  | nil s => exact h'
  | cons hstep _ ih => exact .cons hstep (ih h')

theorem mono (h : Trace step s labels s')
    (hstep : ∀ s label s', label ∈ labels → step s label s' → step' s label s') :
    Trace step' s labels s' := by
  induction h with
  | nil s => exact .nil s
  | cons hfirst _ ih =>
    exact .cons (hstep _ _ _ List.mem_cons_self hfirst)
      (ih fun s label s' hmem => hstep s label s' (List.mem_cons_of_mem _ hmem))

theorem invariant {P : S → Prop} (h : Trace step s labels s')
    (hstep : ∀ s label s', label ∈ labels → step s label s' → P s → P s') (hs : P s) : P s' := by
  induction h with
  | nil s => exact hs
  | cons hfirst _ ih =>
    exact ih (fun s label s' hmem => hstep s label s' (List.mem_cons_of_mem _ hmem))
      (hstep _ _ _ List.mem_cons_self hfirst hs)

end Trace
