import MarketingForm.Export.Report
import MarketingForm.Proofs.Command.Run
import MarketingForm.Proofs.Form.Bag

/-!
# Token files over configured tokens

The tokens of an export are those of the settings with those of the token file laid over them
(`workOn_planOf`). The declarations of an overlay are those of the lower tokens, with the values of the
upper ones, and behind them those of the new tokens (`Tokens.css_overlay`).
-/

namespace MarketingForm

open Files

namespace Tokens

theorem css_eq_append {ts us vs : Tokens} (h : ts.entries = us.entries ++ vs.entries) :
    ts.css = us.css ++ vs.css := by
  apply String.toList_injective
  simp only [css, h, String.toList_append, String.toList_join, List.map_append, List.flatMap_append]

theorem css_overlay (a b : Tokens) : Tokens.css (a.overlay b) =
    Tokens.css (a.revalue b) ++ Tokens.css (b.without a) :=
  css_eq_append (Bag.entries_overlay a b)

end Tokens

/-! ## Tokens of an export -/

section

variable {t u v : Tree} {home path text : String} {settings : Settings} {extra : Tokens}

theorem runOn_loadSettings (hread : t.text (Settings.pathIn home) = .ok text)
    (hyaml : Settings.ofYaml text = .ok settings) :
    runOn t (Settings.load home) = (.ok settings, t) := by
  unfold Settings.load
  rw [runOn_bind, runOn_adapt, runOn_readText?, hread]
  simp only [Except.mapError, hyaml]
  rfl

theorem runOn_loadTokens (hread : t.text path = .ok text) (hyaml : Tokens.ofYaml text = .ok extra) :
    runOn t (Tokens.load path) = (.ok extra, t) := by
  unfold Tokens.load
  rw [runOn_bind, runOn_adapt, runOn_readText, hread]
  simp only [Except.mapError, hyaml]
  rfl

theorem workOn_planOf {o : Overrides} (ho : o.tokens = some path)
    (hsettings : runOn t (Settings.load home) = (.ok settings, u))
    (hextra : runOn u (Tokens.load path) = (.ok extra, v)) (p : Printed) :
    workOn t p (planOf home o) =
      ⟨.ok { shell := (o.shell.map .file).getD settings.shellSource
             tokens := settings.tokens.overlay extra
             outDir := o.outDir.getD settings.outputDir
             fallback := settings.fallbackTitle }, p, v⟩ := by
  unfold planOf
  rw [workOn_bind, workOn_attempt, hsettings]
  simp only [Except.mapError, ho]
  rw [workOn_bind, workOn_attempt, hextra]
  rfl

end

/-- Tokens laid over others: the lower names keep their order and the new ones come behind them in theirs,
and the upper value wins. Overlays are associative and idempotent, and without effect if nothing is laid
over or under. They compile to the lower tokens with the upper values and then the new tokens, which is what
an export with a token file writes for the settings' tokens. -/
theorem tokens_overlay (a b c : Tokens) :
    (a.overlay b).names = a.names ++ b.names.filter (· ∉ a.names) ∧
      (∀ name, (a.overlay b).get? name = (b.get? name).or (a.get? name)) ∧
      (a.overlay b).overlay c = a.overlay (b.overlay c) ∧
      Bag.empty.overlay a = a ∧ a.overlay .empty = a ∧ a.overlay a = a ∧
      Tokens.css (a.overlay b) = Tokens.css (a.revalue b) ++ Tokens.css (b.without a) ∧
      ∀ (t u v : Tree) (p : Printed) (home path : String) (o : Overrides) (settings : Settings),
        settings.tokens = a → o.tokens = some path →
        runOn t (Settings.load home) = (.ok settings, u) → runOn u (Tokens.load path) = (.ok b, v) →
          ∃ plan, workOn t p (planOf home o) = ⟨.ok plan, p, v⟩ ∧ ∀ (form : Form) (shell : String),
            (form.build shell plan.tokens plan.fallback).document =
              (compose shell (form.effectiveTitle plan.fallback)
                (Tokens.css (a.revalue b) ++ Tokens.css (b.without a)) form.fragments).document := by
  have hcss := Tokens.css_overlay a b
  refine ⟨a.names_overlay b, a.get?_overlay b, a.overlay_assoc b c, a.empty_overlay, a.overlay_empty,
    a.overlay_self, hcss, ?_⟩
  rintro t u v p home path o settings rfl ho hsettings hextra
  refine ⟨_, workOn_planOf ho hsettings hextra p, fun form shell => ?_⟩
  rw [← hcss]
  rfl

def configuredText : String := "tokens:\n  --primary: red\n  --gap: 4px\n"

def tokenText : String := "--font: serif\n--gap: 2px\n"

/-- A home directory with settings, and a token file beside it. -/
def tokenTree : Tree := .dir [
  ("home".toList, .dir [(".formforge".toList, .dir [("config.yaml".toList, .file configuredText.toUTF8)])]),
  ("tokens.yaml".toList, .file tokenText.toUTF8)]

theorem tokens_overlay_tokenTree :
    let settings : Settings :=
      { Settings.empty with tokens := .ofList [("--primary", "red"), ("--gap", "4px")] }
    let extra : Tokens := .ofList [("--font", "serif"), ("--gap", "2px")]
    runOn tokenTree (Settings.load "home") = (.ok settings, tokenTree) ∧
      runOn tokenTree (Tokens.load "tokens.yaml") = (.ok extra, tokenTree) ∧
      ∃ plan, workOn tokenTree ⟨"", ""⟩ (planOf "home" ⟨none, none, some "tokens.yaml"⟩) =
          ⟨.ok plan, ⟨"", ""⟩, tokenTree⟩ ∧
        ((Form.new "F").build Placeholder.tokens.mark plan.tokens plan.fallback).document =
          "  --primary: red;\n  --gap: 2px;\n  --font: serif;\n" := by
  intro settings extra
  have hsettings : runOn tokenTree (Settings.load "home") = (.ok settings, tokenTree) :=
    runOn_loadSettings (text_of_read (s := configuredText) rfl) (toOption_eq_some.1 (by decide +kernel))
  have hextra : runOn tokenTree (Tokens.load "tokens.yaml") = (.ok extra, tokenTree) :=
    runOn_loadTokens (text_of_read (s := tokenText) rfl) (toOption_eq_some.1 (by decide +kernel))
  obtain ⟨-, -, -, -, -, -, -, hplan⟩ := tokens_overlay settings.tokens extra .empty
  obtain ⟨plan, hrun, hdocument⟩ := hplan tokenTree tokenTree tokenTree ⟨"", ""⟩ "home" "tokens.yaml"
    ⟨none, none, some "tokens.yaml"⟩ settings rfl rfl hsettings hextra
  have htitle : (Form.new "F").effectiveTitle plan.fallback = "F" := if_neg (by decide)
  refine ⟨hsettings, hextra, plan, hrun, (hdocument _ _).trans ?_⟩
  rw [htitle]
  decide +kernel

end MarketingForm
