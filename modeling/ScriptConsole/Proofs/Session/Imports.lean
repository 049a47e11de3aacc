import ScriptConsole.Proofs.Chain.Path
import ScriptConsole.Proofs.Session.Assignment

namespace ScriptConsole

/-- One field behind the other. -/
def Expr.fields (e : Expr) (names : List String) : Expr := names.foldl .field e

section Fields
variable (e : Expr) (names : List String)

theorem print_fields : (e.fields names).print = ".".intercalate (e.print :: names) := by
  induction names generalizing e with
  | nil => exact String.intercalate_singleton.symm
  | cons name names ih =>
    rw [Expr.fields, List.foldl_cons, ← Expr.fields, ih, Expr.print,
      String.intercalate_cons_append, String.intercalate_cons_cons]

theorem path?_fields {q : QualifiedName} (he : e.path? = some q) (hq : q ≠ "") :
    (e.fields names).path? = some (".".intercalate (q :: names)) := by
  induction names generalizing e q with
  | nil => rw [String.intercalate_singleton, ← he]; rfl
  | cons name names ih =>
    have hjoin : QualifiedName.join q name = q ++ "." ++ name := by
      rw [QualifiedName.join, if_neg (by simpa using hq)]
    have hfield : (Expr.field e name).path? = some (q ++ "." ++ name) := by
      rw [Expr.path?, he, Option.map_some, hjoin]
    rw [Expr.fields, List.foldl_cons, ← Expr.fields, ih _ hfield (by simp),
      String.intercalate_cons_append, String.intercalate_cons_cons]

theorem wellNamed_fields (he : e.WellNamed) (h : ∀ name ∈ names, isIdentifier name = true) :
    (e.fields names).WellNamed := by
  induction names generalizing e with
  | nil => exact he
  | cons name names ih =>
    obtain ⟨hname, hnames⟩ := List.forall_mem_cons.1 h
    exact ih _ (.field e name he hname) hnames

theorem deepest_fields (d : Nat) (he : e.deepest d = d + 1 + e.linkCount) :
    (e.fields names).deepest d = d + 1 + e.linkCount + names.length := by
  induction names generalizing e with
  | nil => exact he
  | cons name names ih =>
    have hfield : (Expr.field e name).deepest d = d + 1 + (Expr.field e name).linkCount := by
      rw [Expr.deepest, he, Expr.linkCount]
      exact Nat.max_eq_right (Nat.le_succ _)
    rw [Expr.fields, List.foldl_cons, ← Expr.fields, ih _ hfield, Expr.linkCount, List.length_cons]
    omega

end Fields

section Paths
variable {first : String} {names : List String}
variable (h : ∀ name ∈ first :: names, isIdentifier name = true)
include h

theorem quote_not_mem_path : '\'' ∉ (".".intercalate (first :: names)).toList := by
  have hidentifier (name : String) (hname : isIdentifier name = true) : '\'' ∉ name.toList := by
    intro hquote
    obtain ⟨c, cs, htext, hc, hcs⟩ := (isIdentifier_iff name).1 hname
    rw [htext] at hquote
    rcases List.mem_cons.1 hquote with rfl | hmem
    · cases (isIdentStart_sign (by decide : '\'' ∈ signs)).symm.trans hc
    · cases (isIdentContinue_sign (by decide : '\'' ∈ signs)).symm.trans (hcs _ hmem)
  induction names generalizing first with
  | nil =>
    rw [String.intercalate_singleton]
    exact hidentifier first (h first List.mem_cons_self)
  | cons name names ih =>
    obtain ⟨hfirst, hnames⟩ := List.forall_mem_cons.1 h
    rw [String.intercalate_cons_cons, String.toList_append, String.toList_append,
      List.mem_append, List.mem_append]
    rintro ((hquote | hquote) | hquote)
    · exact hidentifier first hfirst hquote
    · simp at hquote
    · exact ih hnames hquote

variable {keyword : String} (hkeyword : isIdentifier keyword = true)
variable (hplain : keyword ∉ ["true", "false", "null"])
include hkeyword hplain

/-- A path in the arguments of a call, one level below the depth limit at the most. -/
theorem parseExpression_call_path (hlength : (first :: names).length ≤ 127)
    (hword : first ∉ ["true", "false", "null"]) :
    parseExpression (keyword ++ "(" ++ ".".intercalate (first :: names) ++ ")") =
      .ok (.call keyword [(Expr.name first).fields names]) := by
  obtain ⟨hfirst, hnames⟩ := List.forall_mem_cons.1 h
  have hpath : ((Expr.name first).fields names).WellNamed :=
    wellNamed_fields _ names (.name first hfirst hword) hnames
  have hcall : (Expr.call keyword [(Expr.name first).fields names]).WellNamed :=
    .call _ _ hkeyword hplain (List.forall_mem_singleton.2 hpath)
  have hdeep : (Expr.call keyword [(Expr.name first).fields names]).deepest 0 ≤ maxDepth := by
    have hfields := deepest_fields (.name first) names 1 rfl
    have hlinks : (Expr.name first).linkCount = 0 := rfl
    simp only [List.length_cons] at hlength
    simp only [Expr.deepest, Expr.deepestOf, maxDepth, Nat.zero_add]
    omega
  have hprint : (Expr.call keyword [(Expr.name first).fields names]).print =
      keyword ++ "(" ++ ".".intercalate (first :: names) ++ ")" := by
    rw [Expr.print, Expr.printArgs, print_fields, Expr.print]
  rw [← hprint]
  exact (parseExpression_printable _ (printable_of_wellNamed _ hcall)).2 hdeep

end Paths

/-- A string without quotes in the arguments of a call. -/
theorem parseExpression_call_raw {keyword : String} (hkeyword : isIdentifier keyword = true)
    (hplain : keyword ∉ ["true", "false", "null"]) {text : String} (htext : '\'' ∉ text.toList) :
    parseExpression (keyword ++ "('" ++ text ++ "')") =
      .ok (.call keyword [.literal (.string text)]) := by
  have hsource : ("'" ++ text ++ "'").toList = '\'' :: text.toList ++ ['\''] := by simp
  have hunquote : unquote ("'" ++ text ++ "'") = some text := by
    rw [← String.ofList_toList (s := "'" ++ text ++ "'"), hsource, unquote_raw,
      String.ofList_toList]
  have hformed : (Terminal.string ("'" ++ text ++ "'")).Formed := by
    rw [Terminal.Formed, Terminal.text, hsource]
    exact .raw _ htext
  let t : ExprTree := .mk (.named keyword (literalWord_of_not_mem keyword hplain)
    (.args (.one (.mk (.string _ text hunquote) .nil)))) .nil
  have hcall : Writes ([.ident keyword] ++ [.lParen]) (keyword ++ "(") :=
    writes_append _ _ _ _ (writes_ident keyword hkeyword) writes_lParen
  have hargument : Writes ([.string ("'" ++ text ++ "'")] ++ [.rParen])
      ("'" ++ text ++ "'" ++ ")") :=
    writes_append _ _ _ _ (writes_one _ _ hformed String.ofList_toList) writes_rParen
  have hwrites : Writes t.yield (keyword ++ "(" ++ ("'" ++ text ++ "'" ++ ")")) :=
    writes_append ([.ident keyword] ++ [.lParen]) ([.string _] ++ [.rParen]) _ _ hcall hargument
  have hdeep : t.deepest 0 ≤ maxDepth := by
    simp [t, ExprTree.deepest, PrimaryTree.deepest, CallTree.deepest, ArgsTree.deepest,
      LinksTree.deepest, maxDepth]
  have hline : keyword ++ "(" ++ ("'" ++ text ++ "'" ++ ")") = keyword ++ "('" ++ text ++ "')" := by
    simp [← String.toList_inj]
  rw [← hline, ← hwrites.2]
  exact (parseExpression_written t hwrites.1).2 hdeep

namespace Session

variable (s : Session)

/-- The lines of an import statement for `q`, with `q` as a path or as a string, come out alike,
ended or not; behind, between and in front of the tokens of the path there may be blanks. -/
structure Imports (keyword q : String) (outcome : Outcome Value) : Prop where
  path : ∀ stop, stop = "" ∨ stop = ";" → s.execute (keyword ++ "(" ++ q ++ ")" ++ stop) = outcome
  string : ∀ stop, stop = "" ∨ stop = ";" →
    s.execute (keyword ++ "('" ++ q ++ "')" ++ stop) = outcome
  spaced : ∀ stop, stop = "" ∨ stop = ";" → ∀ line,
    Spaced ((tokenize (keyword ++ "(" ++ q ++ ")" ++ stop)).map Token.text) line.toList →
      s.execute line = outcome

theorem execute_spaced {source line stop : String} {e : Expr}
    (hsource : parseExpression source = .ok e) (hstop : stop = "" ∨ stop = ";")
    (hline : Spaced ((tokenize (source ++ stop)).map Token.text) line.toList) :
    s.execute line = s.run (.expr e) := by
  rw [execute, parseStatement_spaced hsource hstop hline]

theorem importTarget?_path {arg : Expr} {q : QualifiedName} (h : arg.path? = some q) :
    importTarget? [arg] = some q := by
  cases arg with
  | literal _ => cases h
  | name _ | call _ _ | field _ _ | invoke _ _ _ => exact h

theorem run_importClass {arg : Expr} {q : QualifiedName} (h : importTarget? [arg] = some q) :
    s.run (.expr (.call importClassKeyword [arg])) = yielding .void (s.importClass q) := by
  rw [run, if_pos (.inl rfl), runImport, h]
  exact if_pos rfl

theorem run_importPackage {arg : Expr} {path : QualifiedName}
    (h : importTarget? [arg] = some path) :
    s.run (.expr (.call importPackageKeyword [arg])) = yielding .void (s.importPackage path) := by
  rw [run, if_pos (.inr rfl), runImport, h]
  exact if_neg (by decide)

theorem imports_of_run {keyword : String} (hkeyword : isIdentifier keyword = true)
    (hplain : keyword ∉ ["true", "false", "null"]) {first : String} {names : List String}
    (h : ∀ name ∈ first :: names, isIdentifier name = true)
    (hlength : (first :: names).length ≤ 127) (hword : first ∉ ["true", "false", "null"])
    {outcome : Outcome Value}
    (hrun : ∀ arg, importTarget? [arg] = some (".".intercalate (first :: names)) →
      s.run (.expr (.call keyword [arg])) = outcome) :
    s.Imports keyword (".".intercalate (first :: names)) outcome := by
  have hpath := parseExpression_call_path h hkeyword hplain hlength hword
  have hstring := parseExpression_call_raw hkeyword hplain (quote_not_mem_path h)
  have hne : first ≠ "" := by
    rintro rfl
    cases h "" List.mem_cons_self
  have hfields := hrun _ (importTarget?_path (path?_fields (.name first) names rfl hne))
  refine ⟨?_, ?_, ?_⟩
  · intro stop hstop
    rw [s.execute_ended hpath hstop, hfields]
  · intro stop hstop
    rw [s.execute_ended hstring hstop]
    exact hrun _ rfl
  · intro stop hstop line hline
    rw [s.execute_spaced hpath hstop hline, hfields]

/-- A line that imports a class or a package by a path of names does what the import itself does,
yields `void` where that succeeds and fails with the same error where that fails. -/
theorem execute_import (first : String) (names : List String)
    (h : ∀ name ∈ first :: names, isIdentifier name = true)
    (hlength : (first :: names).length ≤ 127) (hword : first ∉ ["true", "false", "null"]) :
    let q := ".".intercalate (first :: names)
    s.Imports "importClass" q (yielding .void (s.importClass q)) ∧
      s.Imports "importPackage" q (yielding .void (s.importPackage q)) :=
  ⟨s.imports_of_run (by decide) (by decide) h hlength hword fun _ => s.run_importClass,
    s.imports_of_run (by decide) (by decide) h hlength hword fun _ => s.run_importPackage⟩

/-- A class imported by a path with blanks between its names, and a package that is none. -/
theorem execute_import_standard :
    let imported := boundSession.execute " importClass( java . lang\t.String) ;"
    imported.1 = .ok .void ∧
      imported.2.scope.importedClass? "String" = some "java.lang.String" ∧
      boundSession.execute "importPackage('java.lang.String');" =
        (.error (.unknownPackage "java.lang.String"), boundSession) := by
  obtain ⟨hclass, hpackage⟩ :=
    boundSession.execute_import "java" ["lang", "String"] (by decide) (by decide) (by decide)
  have hnone : ∀ c ∈ [], isTokenBlank c = true := List.forall_mem_nil _
  have hblank : ∀ c ∈ [' '], isTokenBlank c = true := List.forall_mem_singleton.2 rfl
  have htab : ∀ c ∈ ['\t'], isTokenBlank c = true := List.forall_mem_singleton.2 rfl
  have hline : Spaced
      ["importClass", "(", "java", ".", "lang", ".", "String", ")", ";"]
      " importClass( java . lang\t.String) ;".toList :=
    .cons [' '] _ _ _ hblank (.cons [] _ _ _ hnone (.cons [' '] _ _ _ hblank
      (.cons [' '] _ _ _ hblank (.cons [' '] _ _ _ hblank (.cons ['\t'] _ _ _ htab
      (.cons [] _ _ _ hnone (.cons [] _ _ _ hnone (.cons [' '] _ _ _ hblank (.nil [] hnone)))))))))
  have htokens : (tokenize ("importClass" ++ "(" ++ "java.lang.String" ++ ")" ++ ";")).map
      Token.text = ["importClass", "(", "java", ".", "lang", ".", "String", ")", ";"] := by
    with_unfolding_all rfl
  intro imported
  have himported : imported = _ := hclass.spaced ";" (.inr rfl) _ (htokens ▸ hline)
  rw [himported]
  refine ⟨rfl, by with_unfolding_all rfl, ?_⟩
  with_unfolding_all exact hpackage.string ";" (.inr rfl)

end Session
end ScriptConsole
