import DocSplice.Text.Basic

/-!
# Lines

A text is cut after each line feed (`pieces`), which loses nothing. The `lines` of a text are its
pieces without their terminators, a line feed and one carriage return directly before it. A comparison
also ends lines at a lone carriage return (`terminatedLines`); this cut too keeps the terminators and
loses nothing.
-/
namespace DocSplice.Text

/-- The text cut after each line feed; an unterminated rest is a piece of its own. -/
def pieces (t : Text) : List Text := go [] [] t
where
  go (done : List Text) (piece : Text) : Text → List Text
    | [] => (if piece = [] then done else piece.reverse :: done).reverse
    | c :: r => if c = '\n' then go ((c :: piece).reverse :: done) [] r else go done (c :: piece) r

theorem pieces.flatten_go (done : List Text) (piece t : Text) :
    (go done piece t).flatten = done.reverse.flatten ++ piece.reverse ++ t := by
  induction t generalizing done piece with
  | nil => by_cases h : piece = [] <;> simp [go, h]
  | cons c r ih => by_cases h : c = '\n' <;> simp [go, h, ih]

/-- Cutting a text into pieces loses nothing. -/
@[simp] theorem flatten_pieces (t : Text) : (pieces t).flatten = t := by
  simp [pieces, pieces.flatten_go]

/-- A piece without its line feed and without a carriage return directly before that. -/
def chomp (piece : Text) : Text :=
  match piece.reverse with
  | '\n' :: '\r' :: r => r.reverse
  | '\n' :: r => r.reverse
  | _ => piece

/-- The lines of a text. -/
def lines (t : Text) : List Text := (pieces t).map chomp

/-- The text cut after each `\r\n`, each `\n` and each lone `\r`. -/
def terminatedLines (t : Text) : List Text := go [] [] t
where
  go (done : List Text) (line : Text) : Text → List Text
    | [] => (if line = [] then done else line.reverse :: done).reverse
    | '\r' :: '\n' :: r => go (('\n' :: '\r' :: line).reverse :: done) [] r
    | c :: r =>
      if c = '\n' ∨ c = '\r' then go ((c :: line).reverse :: done) [] r else go done (c :: line) r

theorem terminatedLines.flatten_go (done : List Text) (line t : Text) :
    (go done line t).flatten = done.reverse.flatten ++ line.reverse ++ t := by
  fun_induction go done line t with
  | case1 => grind
  | case2 => grind
  | case3 => grind
  | case4 => grind

/-- Cutting a text into lines with their terminators loses nothing. -/
@[simp] theorem flatten_terminatedLines (t : Text) : (terminatedLines t).flatten = t := by
  simp [terminatedLines, terminatedLines.flatten_go]

/-- Whether a line of a comparison has a terminator. -/
def isTerminated (line : Text) : Bool := line.getLast? = some '\n' || line.getLast? = some '\r'

end DocSplice.Text
