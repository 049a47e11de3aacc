import ScriptConsole.Proofs.Expr.Lines
import ScriptConsole.Proofs.Session.Statements

namespace ScriptConsole.Session

variable (s : Session)

section Lines
variable {name source : String} {e : Expr} {stop : String}

theorem execute_ended (hsource : parseExpression source = .ok e) (hstop : stop = "" ∨ stop = ";") :
    s.execute (source ++ stop) = s.run (.expr e) := by
  rw [execute, parseStatement_ended hsource hstop]

theorem execute_assign_ended (hname : isIdentifier name = true)
    (hsource : parseExpression source = .ok e) (hstop : stop = "" ∨ stop = ";") :
    s.execute (name ++ " = " ++ (source ++ stop)) = s.run (.assign name e) := by
  have hblank : ∀ c ∈ " ".toList, isTokenBlank c = true := List.forall_mem_singleton.2 rfl
  have hline : name ++ " = " ++ (source ++ stop) =
      name ++ " " ++ "=" ++ (" " ++ (source ++ stop)) := by
    simp [← String.toList_inj]
  have hends : TokenKind.assign.Ends (" " ++ (source ++ stop)).toList := by
    simp [TokenKind.Ends, isOperatorChar]
  rw [execute, hline, parseStatement_assign hname hblank hblank hsource hstop hends]

end Lines

theorem run_assign_error (name : String) {e : Expr} {error : SessionError}
    (h : s.evaluate e = .error error) : s.run (.assign name e) = (.error error, s) := by
  rw [run, h]

theorem run_assign_ok {name : String} (hname : isIdentifier name = true) {e : Expr} {v : Value}
    (h : s.evaluate e = .ok v) :
    s.run (.assign name e) = (.ok v, { s with scope := s.scope.bind name v }) := by
  rw [run, h]
  dsimp only
  rw [bind, if_pos hname]
  rfl

/-- An assignment of an expression, no import, yields what the expression yields on a line of its
own and binds it, with the rest of the scope unchanged, or fails with the same error and leaves the
session as it is.  A semicolon behind the expression or the assignment makes no difference. -/
theorem execute_assign (name source : String) (hname : isIdentifier name = true) (e : Expr)
    (hsource : parseExpression source = .ok e) :
    ((∀ args, e ≠ .call importClassKeyword args ∧ e ≠ .call importPackageKeyword args) →
      (∀ v, (s.execute source).1 = .ok v →
        ∃ bindings, s.scope.bindings.ChangedAt name v bindings ∧
          s.execute (name ++ " = " ++ source) =
            (.ok v, { s with scope := { s.scope with bindings } })) ∧
      ∀ error, (s.execute source).1 = .error error →
        s.execute (name ++ " = " ++ source) = (.error error, s)) ∧
    s.execute (source ++ ";") = s.execute source ∧
    s.execute (name ++ " = " ++ source ++ ";") = s.execute (name ++ " = " ++ source) := by
  have hexpr : s.execute source = s.run (.expr e) := by
    simpa using s.execute_ended hsource (.inl rfl)
  have hassign : s.execute (name ++ " = " ++ source) = s.run (.assign name e) := by
    simpa using s.execute_assign_ended hname hsource (.inl rfl)
  refine ⟨?_, ?_, ?_⟩
  · intro hplain
    rw [hexpr, hassign, s.run_plain e hplain]
    constructor
    · intro v hv
      exact ⟨_, changedAt_set _ _ _, s.run_assign_ok hname hv⟩
    · intro error herror
      exact s.run_assign_error name herror
  · rw [hexpr]
    exact s.execute_ended hsource (.inr rfl)
  · rw [hassign, String.append_assoc]
    exact s.execute_assign_ended hname hsource (.inr rfl)

/-- A binding replaced by what is read from it, with blanks and a semicolon in the line. -/
theorem execute_assign_length :
    ∃ bindings, boundSession.scope.bindings.ChangedAt "n" (.integer 3) bindings ∧
      boundSession.execute ("n" ++ " = " ++ " n . length()" ++ ";") =
        (.ok (.integer 3),
          { boundSession with scope := { boundSession.scope with bindings } }) := by
  have hsource : parseExpression " n . length()" = .ok (.invoke (.name "n") "length" []) := by
    with_unfolding_all rfl
  obtain ⟨hplain, _, hended⟩ :=
    execute_assign boundSession "n" " n . length()" (by decide) _ hsource
  rw [hended]
  exact (hplain (by simp)).1 (.integer 3) (by with_unfolding_all rfl)

end ScriptConsole.Session
