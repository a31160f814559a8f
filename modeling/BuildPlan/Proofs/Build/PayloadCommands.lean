import BuildPlan.Proofs.Build.PayloadFiles
import BuildPlan.Proofs.Ninja.Expansion

/-!
# What payload commands come to

The command of a step with a payload names a file below the build directory, whose name may have any characters. It is
quoted for the shell first and then escaped for Ninja, so that it comes to the words that are meant, and to nothing else
whatever variables there are: `Session.addStep_payloadCommand`.
-/

namespace BuildPlan

namespace Step

variable {s : Step}

theorem payload?_of_script (hform : ¬s.Malformed) (hscript : s.script ≠ "") :
    s.payload? = .ok (some (.script s.script)) := by
  have hcommand : s.command = "" := by
    by_contra hne
    exact hform (.inl ⟨hne, .inl hscript⟩)
  rw [payload?, if_pos hscript, if_neg (not_not.mpr hcommand)]

theorem payload?_of_data (hform : ¬s.Malformed) (hscript : s.script = "") (hdata : s.data ≠ "") :
    ∃ mode out, s.allOuts = [out] ∧ s.payload? = .ok (some (.data s.data mode out)) := by
  have hcommand : s.command = "" := by
    by_contra hne
    exact hform (.inl ⟨hne, .inr hdata⟩)
  have houts : ¬(s.out = none ∨ s.outs ≠ []) := fun h => hform (.inr ⟨hscript, hdata, h⟩)
  obtain ⟨hout, houts⟩ := not_or.mp houts
  obtain ⟨out, hout⟩ := Option.ne_none_iff_exists'.mp hout
  rw [not_not] at houts
  refine ⟨if s.dataMode = 0 then plainMode else s.dataMode, out, by rw [allOuts, hout, houts]; rfl, ?_⟩
  rw [payload?, if_neg (not_not.mpr hscript), if_pos hdata, if_neg (not_not.mpr hcommand), hout, houts]

end Step

/-- The command for a payload comes to its words. -/
theorem Payload.isLiteral_command (payload : Payload) (w : Workspace) :
    IsLiteral (payload.command w) (payload.words w) := isLiteral_escapeValue _

theorem AnyStep.isLiteral_command {s : Step} {w : Workspace} {payload : Payload}
    (h : s.payload? = .ok (some payload)) : IsLiteral ((plain s).signature w).rule.command (payload.words w) := by
  have hpayload : (plain s).payload = some payload := by
    rw [AnyStep.payload, AnyStep.payload?, h]
    rfl
  rw [command_signature w hpayload]
  exact payload.isLiteral_command w

namespace Session

/-- **The command of a step with a payload comes to exactly the words that are meant, whatever the build directory is
called:** the file of a script, and for data a copy from its file to the output. All its dollar signs are paired, so
that Ninja expands nothing in it. When the step is added, it is the command of its edge. -/
theorem addStep_payloadCommand (w : Workspace) (step : Step) (hform : ¬step.Malformed) :
    (step.script ≠ "" →
      IsLiteral ((AnyStep.plain step).signature w).rule.command [joinText w.dataDir (hexChecksum step.script)]) ∧
    (step.script = "" → step.data ≠ "" → ∃ out, step.allOuts = [out] ∧
      IsLiteral ((AnyStep.plain step).signature w).rule.command
        ["cp", joinText w.dataDir (hexChecksum step.data), out.absolute]) ∧
    (step.allOuts ≠ [] → ∀ s s', addStep w (.plain step) s = .ok () s' →
      (AnyStep.plain step).signature w ∈ s'.graph.statements) := by
  refine ⟨fun hscript => ?_, fun hscript hdata => ?_, fun houts s s' h => ?_⟩
  · exact AnyStep.isLiteral_command (Step.payload?_of_script hform hscript)
  · obtain ⟨mode, out, houts, hpayload⟩ := Step.payload?_of_data hform hscript hdata
    exact ⟨out, houts, AnyStep.isLiteral_command hpayload⟩
  · exact signature_mem_of_addStep houts h

end Session

/-- A workspace whose build directory has a name with characters that mean something to Ninja and to shells. -/
def oddWorkspace : Workspace := { sourceDir := "/src", buildRoot := "/o $ut/it's/build" }

/-- A step with data in that workspace. -/
def oddStep : Step := { out := some (.out (oddWorkspace.out "a$b c")), data := "x" }

theorem Session.addStep_payloadCommand_sample :
    ¬oddStep.Malformed ∧ ((AnyStep.plain oddStep).signature oddWorkspace).rule.command =
        "cp '/o $$ut/it'\"'\"'s/DATA/8CDC1683' '/o $$ut/it'\"'\"'s/build/a$$b c'" ∧
      IsLiteral ((AnyStep.plain oddStep).signature oddWorkspace).rule.command
        ["cp", "/o $ut/it's/DATA/8CDC1683", "/o $ut/it's/build/a$b c"] := by
  have hform : ¬oddStep.Malformed := by
    show ¬(_ ∨ _)
    decide
  have hfile : joinText oddWorkspace.dataDir (hexChecksum oddStep.data) = "/o $ut/it's/DATA/8CDC1683" := by
    decide +kernel
  have hout : (oddWorkspace.out "a$b c").absolute = "/o $ut/it's/build/a$b c" := by decide +kernel
  obtain ⟨out, houts, hliteral⟩ := (addStep_payloadCommand oddWorkspace oddStep hform).2.1 rfl (by decide)
  obtain rfl : .out (oddWorkspace.out "a$b c") = out := List.singleton_inj.mp houts
  rw [hfile, Path.absolute, hout] at hliteral
  exact ⟨hform, by decide +kernel, hliteral⟩

end BuildPlan
