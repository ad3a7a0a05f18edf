import NoreplyGateway.Additional.Binding

namespace NoreplyGateway.Additional

open Machine Oauth Upstream

/-- The file has been replaced when the write ends. -/
def replaces : Write → Bool
  | .done => true
  | .failed replaced => replaced

variable (lib : Library) (email : EmailPackage) (config : Config) (secret : Option String)

/-- When a write ends, a write of the choice in force is still going on, or the
file has that choice. A restart finds a stored choice that is accepted. -/
def Sender.Settles (s : Sender) : Event → Prop
  | .written task choice write =>
    s.choice ∈ (s.writes.erase (task, choice)).map Prod.snd ∨
      (if replaces write then choice else s.stored) = s.choice
  | .restart => (opened lib email config secret s.tokens.vault s.stored).choice = s.stored
  | _ => True

variable {lib email config secret} {s t u v : Sender} {e : Event}

/-- The choice in force is stored, or it is being written. -/
def Sender.Agrees (s : Sender) : Prop :=
  s.stored = s.choice ∨ s.choice ∈ s.writes.map Prod.snd

instance : Decidable (s.Settles lib email config secret e) := by
  unfold Sender.Settles
  split <;> infer_instance

theorem written_step {task : ℕ} {choice : Option Choice} {write : Write} {out : Option Output}
    (h : s.perform lib email config secret (.written task choice write) = some (t, out)) :
    (task, choice) ∈ s.writes ∧ t = { s with
      stored := if replaces write then choice else s.stored
      writes := s.writes.erase (task, choice) } := by
  simp only [Sender.perform] at h
  split_ifs at h with hmem
  refine ⟨hmem, ?_⟩
  split at h <;> cases h <;> rfl

theorem choose_step {task : ℕ} {mode customSender : Value} {out : Option Output}
    (h : s.perform lib email config secret (.choose task mode customSender) = some (t, out)) :
    (∃ error, s.choose email config mode customSender = .error error ∧ t = s ∧
      out = some (.chosen task (.error error))) ∨
    ∃ choice, s.choose email config mode customSender = .ok choice ∧ out = none ∧
      t = { s with choice := some choice, writes := s.writes ++ [(task, some choice)] } := by
  simp only [Sender.perform] at h
  split at h
  next error hchoice =>
    cases h
    exact .inl ⟨error, hchoice, rfl, rfl⟩
  next choice hchoice =>
    cases h
    exact .inr ⟨choice, hchoice, rfl, rfl⟩

theorem clear_agrees (s : Sender) (task : ℕ) : (s.clear task).Agrees :=
  .inr (by simp [Sender.clear])

theorem Sender.Agrees.step (hs : s.Agrees) (hc : s.Settles lib email config secret e)
    (h : s.step lib email config secret e = some t) : t.Agrees := by
  obtain ⟨⟨t, out⟩, hp, rfl⟩ := Option.map_eq_some_iff.mp h
  cases e with
  | tokens event =>
    obtain ⟨⟨tokens, output⟩, -, hu⟩ := Option.map_eq_some_iff.mp hp
    dsimp only at hu
    split at hu <;> cases hu
    · exact clear_agrees _ _
    · exact clear_agrees _ _
    · exact hs
  | choose task mode customSender =>
    obtain ⟨error, -, rfl, -⟩ | ⟨choice, -, -, rfl⟩ := choose_step hp
    · exact hs
    · exact .inr (by simp)
  | written task choice write =>
    obtain ⟨-, rfl⟩ := written_step hp
    exact hc.symm
  | restart =>
    cases hp
    exact .inl hc.symm

end NoreplyGateway.Additional
