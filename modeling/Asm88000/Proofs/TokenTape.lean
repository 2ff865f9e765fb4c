import Mathlib.Data.List.Basic
import Mathlib.Logic.Relation
import Asm88000.Proofs.Cursor

namespace Asm88000

-- All tokens of a statement, and the index of the current one.
structure Tape where
  tokens   : List Token
  position : Nat
  deriving DecidableEq, Repr

namespace Tape

variable {τ τ' : Tape}

def ofTokens (ts : List Token) : Tape :=
  match ts.getLast? with
  | none      => ⟨[⟨.endOfStatement, ⟨0, 1⟩⟩], 0⟩
  | some last =>
    ⟨if last.lexeme = .endOfStatement then ts else ts ++ [⟨.endOfStatement, last.loc⟩], 0⟩

def lex? (τ : Tape) : Option (Token × Tape) :=
  τ.tokens[τ.position]?.map fun t =>
    (t, if t.lexeme = .endOfStatement then τ else { τ with position := τ.position + 1 })

def insert (τ : Tape) (t : Token) : Tape :=
  { τ with tokens := τ.tokens.insertIdx τ.position t }

def unlex (τ : Tape) (t : Token) : Tape :=
  if 0 < τ.position ∧ τ.tokens[τ.position - 1]? = some t then { τ with position := τ.position - 1 }
  else τ.insert t

def restore (τ : Tape) (mark : Nat) : Tape :=
  { τ with position := mark }

def eat? (τ : Tape) : Option Tape :=
  ((τ.tokens.drop τ.position).findIdx? fun t => t.lexeme = .endOfStatement).map fun n =>
    { τ with position := τ.position + n }

abbrev Lexes : Tape → Tape → Prop :=
  Relation.ReflTransGen fun τ τ' => ∃ t, τ.lex? = some (t, τ')

theorem tokens_lex? {t : Token} (h : τ.lex? = some (t, τ')) : τ'.tokens = τ.tokens := by
  obtain ⟨_, _, h⟩ := Option.map_eq_some_iff.mp h
  obtain ⟨_, rfl⟩ := Prod.mk.inj h
  split <;> rfl

theorem Lexes.tokens_eq (h : Lexes τ τ') : τ'.tokens = τ.tokens := by
  induction h
  case refl           => rfl
  case tail _ hlex ih =>
    obtain ⟨_, hlex⟩ := hlex
    rw [tokens_lex? hlex, ih]

end Tape

namespace Cursor

variable {c d : Cursor}

def tape (c : Cursor) : Tape :=
  ⟨c.tokens, c.position⟩

theorem tokens_eq (c : Cursor) : c.tokens = c.past.reverse ++ (c.ahead ++ [c.endToken]) :=
  List.append_assoc _ _ _

theorem position_eq (c : Cursor) : c.position = c.past.reverse.length :=
  List.length_reverse.symm

theorem length_tokens (c : Cursor) : c.tokens.length = c.position + c.ahead.length + 1 := by
  simp [tokens, position, Nat.add_assoc]

theorem position_lt (c : Cursor) : c.position < c.tokens.length := by
  have := c.length_tokens
  omega

theorem getLast?_tokens (c : Cursor) : c.tokens.getLast? = some c.endToken :=
  List.getLast?_concat

theorem getElem?_tokens (c : Cursor) (n : Nat) :
    c.tokens[c.position + n]? = (c.ahead ++ [c.endToken])[n]? := by
  rw [tokens_eq, position_eq, List.getElem?_append_right (Nat.le_add_right _ _),
    Nat.add_sub_cancel_left]

theorem current_eq (c : Cursor) : (c.ahead ++ [c.endToken])[0]? = some c.current := by
  cases h : c.ahead <;> simp [current, h]

theorem tape_ofTokens (ts : List Token) : (ofTokens ts).tape = .ofTokens ts := by
  unfold ofTokens Tape.ofTokens
  cases hlast : ts.getLast?
  case none      => rfl
  case some last =>
    by_cases hend : last.lexeme = .endOfStatement
    case neg => simp [hend, tape, tokens, position, endToken]
    case pos =>
      have hts : ts.dropLast ++ [last] = ts := List.dropLast_append_getLast? last hlast
      have hstop : endToken ⟨[], ts.dropLast, last.loc⟩ = last := by rw [endToken, ← hend]
      simp [hend, tape, tokens, position, hstop, hts]

theorem lex?_tape (c : Cursor) : c.tape.lex? = some (c.current, c.advance.tape) := by
  have hcurrent : c.tape.tokens[c.tape.position]? = some c.current :=
    (c.getElem?_tokens 0).trans c.current_eq
  rw [Tape.lex?, hcurrent, Option.map_some]
  obtain ⟨past, ahead, stop⟩ := c
  cases ahead
  case nil => rfl
  case cons t ts =>
    by_cases hend : t.lexeme = .endOfStatement
    case pos => simp [current, advance, hend]
    case neg => simp [current, advance, hend, tape, tokens, position, endToken]

theorem look?_natCast (c : Cursor) (n : Nat) : c.look? n = some (c.peek n) := by
  have hlength := c.length_tokens
  have hmin : min ((c.position : Int) + n) (c.tokens.length - 1) =
      (c.position + min n c.ahead.length : Nat) := by
    omega
  have hindex : ¬((c.position + min n c.ahead.length : Nat) : Int) < 0 := by omega
  simp only [look?, hmin, hindex, ↓reduceIte, Int.toNat_natCast, getElem?_tokens]
  by_cases hn : n < c.ahead.length
  case pos =>
    rw [Nat.min_eq_left (Nat.le_of_lt hn), List.getElem?_append_left hn]
    simp [peek, hn]
  case neg => simp [peek, Nat.le_of_not_lt hn]

def insert (c : Cursor) (t : Token) : Cursor :=
  { c with ahead := t :: c.ahead }

theorem insertIdx_tokens (ts us : List Token) (t : Token) :
    (ts ++ us).insertIdx ts.length t = ts ++ t :: us := by
  induction ts
  case nil          => rfl
  case cons u ts ih => simp only [List.cons_append, List.length_cons, List.insertIdx_succ_cons, ih]

theorem insert_tape (c : Cursor) (t : Token) : (c.insert t).tape = c.tape.insert t := by
  have htokens : c.tokens.insertIdx c.position t = (c.insert t).tokens := by
    rw [tokens_eq, position_eq, insertIdx_tokens, tokens_eq]
    rfl
  rw [tape, ← htokens]
  rfl

theorem pushBack_tape (c : Cursor) (t : Token) : (c.pushBack t).tape = c.tape.unlex t := by
  unfold pushBack Tape.unlex
  split
  case h_2 hpast =>
    rw [if_neg (by simp [tape, position, hpast]), ← insert_tape, insert, hpast]
  case h_1 p ps hpast =>
    have hlast : c.tape.tokens[c.tape.position - 1]? = some p := by
      simp [tape, tokens, position, hpast]
    have hposition : 0 < c.tape.position := by simp [tape, position, hpast]
    simp only [hlast, hposition, true_and, Option.some.injEq]
    split
    case isFalse    => rw [← insert_tape, insert]
    case isTrue heq => simp [tape, tokens, position, hpast, heq, endToken]

theorem length_tokens_insert (c : Cursor) (t : Token) :
    c.tokens.length ≤ (c.insert t).tokens.length := by
  have h : (c.insert t).tokens.length = c.position + (c.ahead.length + 1) + 1 :=
    (c.insert t).length_tokens
  have := c.length_tokens
  omega

theorem length_tokens_pushBack (c : Cursor) (t : Token) :
    c.tokens.length ≤ (c.pushBack t).tokens.length := by
  have htokens : (c.pushBack t).tokens = (c.tape.unlex t).tokens :=
    congrArg Tape.tokens (c.pushBack_tape t)
  rw [htokens, Tape.unlex]
  split
  case isTrue  => exact Nat.le_refl _
  case isFalse => exact c.insert_tape t ▸ c.length_tokens_insert t

theorem tokens_seek (c : Cursor) (m : Nat) : (c.seek m).tokens = c.tokens := by
  simp only [tokens, seek, List.reverse_reverse, List.take_append_drop, endToken]

theorem seek_tape {m : Nat} (h : m < c.tokens.length) : (c.seek m).tape = c.tape.restore m := by
  have hm : m ≤ (c.past.reverse ++ c.ahead).length := by
    rw [tokens, List.length_append] at h
    exact Nat.le_of_lt_succ h
  have hposition : (c.seek m).position = m := by
    rw [position, seek, List.length_reverse, List.length_take, Nat.min_eq_left hm]
  rw [tape, hposition, tokens_seek]
  rfl

theorem findIdx?_endOfStatement (ts : List Token) {t : Token} (h : t.lexeme = .endOfStatement) :
    (ts ++ [t]).findIdx? (fun t => t.lexeme = .endOfStatement) =
      some (ts.takeWhile fun t => t.lexeme ≠ .endOfStatement).length := by
  induction ts
  case nil          => simp [h]
  case cons u us ih =>
    rw [List.cons_append, List.findIdx?_cons, ih]
    by_cases hu : u.lexeme = .endOfStatement <;> simp [hu]

theorem leadsTo_skipStatement (c : Cursor) : c.LeadsTo c.skipStatement :=
  ⟨_, (List.prefix_iff_eq_append.mp (List.takeWhile_prefix _)).symm, rfl, rfl⟩

theorem eat?_tape (c : Cursor) : c.tape.eat? = some c.skipStatement.tape := by
  have hahead : c.tape.tokens.drop c.tape.position = c.ahead ++ [c.endToken] := by
    simp only [tape, tokens_eq, position_eq, List.drop_left]
  have hposition : c.skipStatement.position =
      c.position + (c.ahead.takeWhile fun t => t.lexeme ≠ .endOfStatement).length := by
    rw [position, skipStatement, List.length_append, List.length_reverse, Nat.add_comm]
    rfl
  rw [Tape.eat?, hahead, findIdx?_endOfStatement _ rfl, Option.map_some, tape, tape, hposition,
    c.leadsTo_skipStatement.tokens]

def lexing : Discipline Error Cursor where
  valid _ := True
  rel c d := c.tape.Lexes d.tape
  fails e := e.fault.family ≠ .general
  refl _  := .refl
  trans   := .trans
  keeps   := fun _ _ => trivial

theorem passes_lexing : lexing.Passes where
  skip c _ := .single ⟨c.current, c.lex?_tape⟩
  fail h _ := h

theorem parse_lexes (c : Cursor) :
    Ensures Expr.parse c (fun _ d => c.tape.Lexes d.tape)
      fun e d => c.tape.Lexes d.tape ∧ e.fault.family ≠ .general :=
  Expr.parse_obeys passes_lexing c trivial

def afterExpr (c : Cursor) : Cursor :=
  match Expr.parse c with
  | .ok _ d    => d
  | .error _ d => d

theorem lexes_afterExpr (c : Cursor) : c.tape.Lexes c.afterExpr.tape := by
  unfold afterExpr
  split
  case h_1 hparse => exact c.parse_lexes.ok hparse
  case h_2 hparse => exact (c.parse_lexes.error hparse).left

-- What can be done with a cursor. `insert` is to take back a token that merely looks like the one
-- consumed last. A mark is named by its place among all that were saved.
inductive Call
  | lex
  | unlex (t : Token)
  | insert (t : Token)
  | peek (n : Nat)
  | save
  | restore (k : Nat)
  | parse
  | eat
  deriving DecidableEq, Repr

structure Reader where
  cursor : Cursor
  marks  : List Nat

namespace Reader

variable {r : Reader}

def start (ts : List Token) : Reader :=
  ⟨.ofTokens ts, []⟩

def move (r : Reader) (c : Cursor) : Reader :=
  { r with cursor := c }

def call (r : Reader) : Call → Reader
  | .lex       => r.move r.cursor.advance
  | .unlex t   => r.move (r.cursor.pushBack t)
  | .insert t  => r.move (r.cursor.insert t)
  | .peek _    => r
  | .save      => { r with marks := r.marks ++ [r.cursor.position] }
  | .restore k => r.move (r.marks[k]?.elim r.cursor r.cursor.seek)
  | .parse     => r.move r.cursor.afterExpr
  | .eat       => r.move r.cursor.skipStatement

def calls (r : Reader) (xs : List Call) : Reader :=
  xs.foldl call r

def Holds (r : Reader) : Prop :=
  ∀ m ∈ r.marks, m < r.cursor.tokens.length

theorem Holds.move {c : Cursor} (h : r.Holds) (hlength : r.cursor.tokens.length ≤ c.tokens.length) :
    (r.move c).Holds :=
  fun m hm => Nat.lt_of_lt_of_le (h m hm) hlength

theorem Holds.move_eq {c : Cursor} (h : r.Holds) (htokens : c.tokens = r.cursor.tokens) :
    (r.move c).Holds :=
  h.move (Nat.le_of_eq (congrArg List.length htokens.symm))

theorem Holds.call (h : r.Holds) (x : Call) : (r.call x).Holds := by
  cases x
  case lex      => exact h.move_eq r.cursor.leadsTo_advance.tokens
  case unlex t  => exact h.move (r.cursor.length_tokens_pushBack t)
  case insert t => exact h.move (r.cursor.length_tokens_insert t)
  case peek n   => exact h
  case save =>
    intro m hm
    obtain hm | hm := List.mem_append.mp hm
    · exact h m hm
    · exact List.mem_singleton.mp hm ▸ r.cursor.position_lt
  case restore k =>
    cases hk : r.marks[k]? <;> simp only [Reader.call, hk, Option.elim]
    case none   => exact h
    case some m => exact h.move_eq (r.cursor.tokens_seek m)
  case parse => exact h.move_eq r.cursor.lexes_afterExpr.tokens_eq
  case eat   => exact h.move_eq r.cursor.leadsTo_skipStatement.tokens

theorem Holds.calls (h : r.Holds) (xs : List Call) : (r.calls xs).Holds := by
  induction xs generalizing r
  case nil          => exact h
  case cons x xs ih => exact ih (h.call x)

-- All calls find the token they look for, and do what they would do with a list.
structure Serves (r : Reader) : Prop where
  inside  : r.cursor.position < r.cursor.tokens.length
  ends    : ∃ loc, r.cursor.tokens.getLast? = some ⟨.endOfStatement, loc⟩
  lex     : r.cursor.tape.lex? = some (r.cursor.current, r.cursor.advance.tape)
  unlex   : ∀ t, (r.cursor.pushBack t).tape = r.cursor.tape.unlex t
  insert  : ∀ t, (r.cursor.insert t).tape = r.cursor.tape.insert t
  peek    : ∀ n : Nat, r.cursor.look? n = some (r.cursor.peek n)
  restore : ∀ m ∈ r.marks,
    m < r.cursor.tokens.length ∧ (r.cursor.seek m).tape = r.cursor.tape.restore m
  parse   : Ensures Expr.parse r.cursor (fun _ d => r.cursor.tape.Lexes d.tape)
    fun e d => r.cursor.tape.Lexes d.tape ∧ e.fault.family ≠ .general
  eat     : r.cursor.tape.eat? = some r.cursor.skipStatement.tape
  back    : r.cursor.current.lexeme ≠ .endOfStatement →
    r.cursor.advance.pushBack r.cursor.current = r.cursor

theorem Holds.serves (h : r.Holds) : r.Serves where
  inside       := r.cursor.position_lt
  ends         := ⟨r.cursor.stop, r.cursor.getLast?_tokens⟩
  lex          := r.cursor.lex?_tape
  unlex        := r.cursor.pushBack_tape
  insert       := r.cursor.insert_tape
  peek         := r.cursor.look?_natCast
  restore m hm := ⟨h m hm, Cursor.seek_tape (h m hm)⟩
  parse        := r.cursor.parse_lexes
  eat          := r.cursor.eat?_tape
  back         := Cursor.pushBack_advance

theorem holds_start (ts : List Token) : (start ts).Holds :=
  fun _ hm => absurd hm List.not_mem_nil

-- From the first token on, whatever has been called, every call can be served.
theorem calls_serve (ts : List Token) (xs : List Call) :
    (start ts).cursor.tape = .ofTokens ts ∧ ((start ts).calls xs).Serves :=
  ⟨Cursor.tape_ofTokens ts, ((holds_start ts).calls xs).serves⟩

end Reader
end Cursor
end Asm88000
