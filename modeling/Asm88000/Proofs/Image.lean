import Asm88000.Proofs.Execution
import Asm88000.Proofs.FileOutput
import Asm88000.Proofs.Layout
import Asm88000.Proofs.Numeral

namespace Asm88000

theorem Object.IsTidy.pairwise_wordIndex_ne {o : Object} (h : o.IsTidy)
    (hcheck : Layout.checkOverlap o.text.start o.text.size o.data.start o.data.size = .ok ()) :
    o.records.Pairwise fun r r' => Image.wordIndex r.address ≠ Image.wordIndex r'.address := by
  refine (h.pairwise_disjoint hcheck).imp fun {r r'} hdisjoint hindex => ?_
  -- Two records in one word would both occupy the higher one of their addresses.
  refine hdisjoint (max r.address r'.address) ?_
  simp only [Record.Occupies, Image.wordIndex, wordSize] at *
  omega

namespace Image

variable {records : List Record} {memory ws : List Nat} {r : Record} {k : Nat}

-- The line that the word of a record is stored on.
def slot (size : Int) (r : Record) : Int :=
  if wordIndex r.address < 0 then wordIndex r.address + size else wordIndex r.address

theorem slot_eq_wordIndex {size : Int} (h : 0 ≤ wordIndex r.address) :
    slot size r = wordIndex r.address :=
  if_neg (Int.not_lt.mpr h)

def put (size : Int) (memory : List Nat) (r : Record) : List Nat :=
  memory.set (slot size r).toNat r.word

@[simp]
theorem length_put (size : Int) (memory : List Nat) (r : Record) :
    (put size memory r).length = memory.length :=
  List.length_set

theorem store_eq_ok_iff {size : Int} : store size memory r = .ok ws ↔
    (0 ≤ slot size r ∧ slot size r < memory.length) ∧ ws = put size memory r := by
  have hstore : store size memory r =
      if 0 ≤ slot size r ∧ slot size r < memory.length then .ok (put size memory r)
      else .error .missingElement := rfl
  rw [hstore]
  split
  case isTrue h  => simp [h, eq_comm]
  case isFalse h => simp [h]

theorem foldlM_store_eq_ok_iff {size : Int} : records.foldlM (store size) memory = .ok ws ↔
    (∀ r ∈ records, 0 ≤ slot size r ∧ slot size r < memory.length) ∧
      ws = records.foldl (put size) memory := by
  induction records generalizing memory
  case nil => simp [pure, Except.pure, eq_comm]
  case cons r records ih =>
    simp only [List.foldlM_cons, bind_eq_ok, store_eq_ok_iff, ih, List.forall_mem_cons,
      List.foldl_cons]
    constructor
    · rintro ⟨_, ⟨hr, rfl⟩, hrecords, hws⟩
      exact ⟨⟨hr, by simpa using hrecords⟩, hws⟩
    · rintro ⟨⟨hr, hrecords⟩, hws⟩
      exact ⟨_, ⟨hr, rfl⟩, by simpa using hrecords, hws⟩

@[simp]
theorem length_foldl_put (size : Int) (records : List Record) (memory : List Nat) :
    (records.foldl (put size) memory).length = memory.length := by
  induction records generalizing memory
  case nil               => rfl
  case cons r records ih => simp [ih]

def recordsOn (size : Int) (records : List Record) (k : Nat) : List Record :=
  records.filter fun r => slot size r = k

theorem getElem?_foldl_put {size : Int}
    (hne : records.Pairwise fun r r' => slot size r ≠ slot size r')
    (h₀ : ∀ r ∈ records, 0 ≤ slot size r) (hk : k < memory.length) :
    (∃ r, recordsOn size records k = [r] ∧ (records.foldl (put size) memory)[k]? = some r.word) ∨
      recordsOn size records k = [] ∧ (records.foldl (put size) memory)[k]? = memory[k]? := by
  induction records generalizing memory
  case nil => exact .inr ⟨rfl, rfl⟩
  case cons r records ih =>
    have ⟨hr, hne⟩ := List.pairwise_cons.mp hne
    have ⟨hr₀, h₀⟩ := List.forall_mem_cons.mp h₀
    have hput : k < (put size memory r).length := by simpa using hk
    by_cases hrk : slot size r = k
    case pos =>
      have hnone : recordsOn size records k = [] := by
        rw [recordsOn, List.filter_eq_nil_iff]
        intro r' hr'
        simpa [← hrk] using (hr r' hr').symm
      have hcons : recordsOn size (r :: records) k = [r] := by
        simpa [recordsOn, hrk] using hnone
      rcases ih hne h₀ hput with ⟨r', hr', _⟩ | ⟨_, hword⟩
      · simp [hnone] at hr'
      · refine .inl ⟨r, hcons, ?_⟩
        rw [List.foldl_cons, hword]
        simp [put, hrk, hk]
    case neg =>
      have hcons : recordsOn size (r :: records) k = recordsOn size records k := by
        simp [recordsOn, hrk]
      have hword : (put size memory r)[k]? = memory[k]? := by
        rw [put, List.getElem?_set_ne (by omega)]
      rw [hcons, List.foldl_cons, ← hword]
      exact ih hne h₀ hput

theorem size_eq (records : List Record) :
    records = [] ∧ size records = 0 ∨
      ∃ r ∈ records, (∀ r' ∈ records, r'.address ≤ r.address) ∧
        size records = wordIndex r.address + 1 := by
  unfold size
  cases hmax : (records.map Record.address).max?
  case none   => exact .inl ⟨by simpa using hmax, rfl⟩
  case some a =>
    have ⟨ha, hle⟩ := List.max?_eq_some_iff.mp hmax
    have ⟨r, hr, hra⟩ := List.mem_map.mp ha
    refine .inr ⟨r, hr, fun r' hr' => ?_, by rw [hra]⟩
    exact hra ▸ hle r'.address (List.mem_map_of_mem hr')

theorem wordIndex_lt_size (hr : r ∈ records) : wordIndex r.address < size records := by
  rcases size_eq records with ⟨hnil, _⟩ | ⟨r', _, hle, hsize⟩
  · simp [hnil] at hr
  · have hmono := Int.ediv_le_ediv (c := wordSize) (by decide) (hle r hr)
    simp only [wordIndex] at hsize ⊢
    omega

theorem slot_lt_size (hr : r ∈ records) : slot (size records) r < size records := by
  have hlt := wordIndex_lt_size hr
  unfold slot
  split
  · omega
  · exact hlt

def Holds (records : List Record) (ws : List Nat) : Prop :=
  ∀ k < ws.length, (∃ r, recordsOn (size records) records k = [r] ∧ ws[k]? = some r.word) ∨
    recordsOn (size records) records k = [] ∧ ws[k]? = some 0

theorem words_eq_ok_iff : words records = .ok ws ↔
    (∀ r ∈ records, 0 ≤ slot (size records) r) ∧
      ws = records.foldl (put (size records)) (List.replicate (size records).toNat 0) := by
  rw [words, foldlM_store_eq_ok_iff, List.length_replicate]
  refine and_congr_left fun _ => forall₂_congr fun r hr => and_iff_left_of_imp fun h₀ => ?_
  have hlt := slot_lt_size hr
  omega

theorem size_nonneg (h₀ : ∀ r ∈ records, 0 ≤ slot (size records) r) : 0 ≤ size records := by
  rcases size_eq records with ⟨_, hsize⟩ | ⟨r, hr, _⟩
  · omega
  · exact Int.le_of_lt (Int.lt_of_le_of_lt (h₀ r hr) (slot_lt_size hr))

theorem words_ok_of_slots
    (hne : records.Pairwise fun r r' => slot (size records) r ≠ slot (size records) r')
    (h₀ : ∀ r ∈ records, 0 ≤ slot (size records) r) :
    ∃ ws, words records = .ok ws ∧ (ws.length : Int) = size records ∧ Holds records ws := by
  refine ⟨_, words_eq_ok_iff.mpr ⟨h₀, rfl⟩, ?_, fun k hk => ?_⟩
  · rw [length_foldl_put, List.length_replicate, Int.toNat_of_nonneg (size_nonneg h₀)]
  · rw [length_foldl_put] at hk
    have hzero : (List.replicate (size records).toNat 0)[k]? = some 0 := by
      rw [List.length_replicate] at hk
      exact List.getElem?_replicate_of_lt hk
    rw [← hzero]
    exact getElem?_foldl_put hne h₀ hk

theorem words_exist (h₀ : ∀ r ∈ records, 0 ≤ wordIndex r.address) :
    ∃ ws, words records = .ok ws := by
  refine ⟨_, words_eq_ok_iff.mpr ⟨fun r hr => ?_, rfl⟩⟩
  rw [slot_eq_wordIndex (h₀ r hr)]
  exact h₀ r hr

theorem words_ok
    (hne : records.Pairwise fun r r' => wordIndex r.address ≠ wordIndex r'.address)
    (h₀ : ∀ r ∈ records, 0 ≤ wordIndex r.address) :
    ∃ ws, words records = .ok ws ∧ (ws.length : Int) = size records ∧ Holds records ws := by
  refine words_ok_of_slots (hne.imp_of_mem fun hr hr' hne => ?_) fun r hr => ?_
  · rwa [slot_eq_wordIndex (h₀ _ hr), slot_eq_wordIndex (h₀ _ hr')]
  · rw [slot_eq_wordIndex (h₀ r hr)]
    exact h₀ r hr

end Image

namespace Text

theorem unifyLineEnds_eq_self {cs : List Char} (h : '\r' ∉ cs) : unifyLineEnds cs = cs := by
  induction cs
  case nil => rfl
  case cons c cs ih =>
    simp only [List.mem_cons, not_or] at h
    rw [unifyLineEnds, ih h.right]
    all_goals
      intros
      simp_all

theorem splitOn_append {sep : Char} {cs rest : List Char} (h : sep ∉ cs) :
    splitOn sep (cs ++ sep :: rest) = cs :: splitOn sep rest := by
  induction cs
  case nil => simp [splitOn]
  case cons c cs ih =>
    simp only [List.mem_cons, not_or] at h
    simp [splitOn, Ne.symm h.left, ih h.right]

theorem splitOn_flatMap {sep : Char} {ls : List String} (h : ∀ l ∈ ls, sep ∉ l.toList) :
    splitOn sep (ls.flatMap fun l => l.toList ++ [sep]) = ls.map String.toList ++ [[]] := by
  induction ls
  case nil => rfl
  case cons l ls ih =>
    have ⟨hl, hls⟩ := List.forall_mem_cons.mp h
    rw [List.flatMap_cons, List.append_assoc, List.singleton_append, splitOn_append hl, ih hls]
    rfl

theorem toList_join_lines (ls : List String) : (String.join (ls.map (· ++ "\n"))).toList =
    ls.flatMap fun l => l.toList ++ ['\n'] := by
  simp [String.toList_join, List.flatMap_map]

theorem lines_join {ls : List String} (h : ∀ l ∈ ls, '\r' ∉ l.toList ∧ '\n' ∉ l.toList) :
    lines (String.join (ls.map (· ++ "\n"))) = ls := by
  have hr : '\r' ∉ ls.flatMap fun l => l.toList ++ ['\n'] := by
    simpa using fun l hl => (h l hl).left
  simp only [lines, toList_join_lines, unifyLineEnds_eq_self hr,
    splitOn_flatMap fun l hl => (h l hl).right]
  simp [Function.comp_def]

end Text

namespace WordFormat

def alphabet : WordFormat → List Char
  | hex => ['0', '1', '2', '3', '4', '5', '6', '7', '8', '9', 'A', 'B', 'C', 'D', 'E', 'F']
  | bin => ['0', '1']

def lineLength : WordFormat → Nat
  | hex => 8
  | bin => 32

def radix : WordFormat → Lexer.Radix
  | hex => .hex
  | bin => .bin

structure Writes (f : WordFormat) (line : String) (word : Nat) : Prop where
  length : line.toList.length = f.lineLength
  digits : ∀ c ∈ line.toList, c ∈ f.alphabet
  value  : Lexer.digitsValue f.radix line.toList = word

variable {f : WordFormat} {word : Nat}

theorem one_lt_base (f : WordFormat) : 1 < f.numeral.base := by
  cases f <;> decide

theorem base_eq (f : WordFormat) : f.numeral.base = f.radix.base := by
  cases f <;> rfl

theorem digit_mem_alphabet (f : WordFormat) : ∀ d < f.numeral.base,
    (if f.numeral.upper then d.digitChar.toUpper else d.digitChar) ∈ f.alphabet := by
  cases f <;> decide

theorem writes_render (f : WordFormat) (h : word < 0x100000000) :
    f.Writes (f.render word) word := by
  have hchars : (f.render word).toList = f.numeral.chars word := String.toList_ofList
  constructor
  case length =>
    have hlen : f.numeral.width = f.lineLength := by cases f <;> rfl
    have hfits : word < f.numeral.base.pow f.numeral.width := by cases f <;> exact h
    rw [hchars, Numeral.length_chars f.one_lt_base (by cases f <;> decide) hfits, hlen]
  case digits =>
    intro c hc
    rw [hchars] at hc
    have ⟨d, hd, hcd⟩ := Numeral.mem_chars f.one_lt_base hc
    exact hcd ▸ f.digit_mem_alphabet d hd
  case value =>
    rw [hchars, Numeral.digitsValue_chars f.base_eq]

theorem Writes.no_line_end {line : String} (h : f.Writes line word) :
    '\r' ∉ line.toList ∧ '\n' ∉ line.toList := by
  have hr : '\r' ∉ f.alphabet := by cases f <;> decide
  have hn : '\n' ∉ f.alphabet := by cases f <;> decide
  exact ⟨fun hc => hr (h.digits _ hc), fun hc => hn (h.digits _ hc)⟩

end WordFormat

namespace Image

def recordsAt (records : List Record) (k : Nat) : List Record :=
  records.filter fun r => wordIndex r.address = k

-- The lines are the image of the records: as many as there are words up to the last record, with
-- the word of the one record at its place, and zero where there is none.
structure Shows (f : WordFormat) (records : List Record) (lines : List String) : Prop where
  length : records = [] ∧ lines = [] ∨
    ∃ r ∈ records, (∀ r' ∈ records, r'.address ≤ r.address) ∧
      (lines.length : Int) = wordIndex r.address + 1
  line   : ∀ k < lines.length, ∃ line word, lines[k]? = some line ∧ f.Writes line word ∧
    ((∃ r, recordsAt records k = [r] ∧ word = r.word) ∨ recordsAt records k = [] ∧ word = 0)
  kept   : ∀ r ∈ records, 0 ≤ wordIndex r.address ∧
    ∃ line, lines[(wordIndex r.address).toNat]? = some line ∧ f.Writes line r.word

theorem lines_render {f : WordFormat} {ws : List Nat} (h : ∀ w ∈ ws, w < 0x100000000) :
    Text.lines (render f ws) = ws.map fun w : Nat => f.render w := by
  have hrender : render f ws =
      String.join ((ws.map fun w : Nat => f.render w).map (· ++ "\n")) := by
    rw [render, List.map_map]
    rfl
  rw [hrender, Text.lines_join]
  intro l hl
  have ⟨w, hw, hl⟩ := List.mem_map.mp hl
  exact hl ▸ (f.writes_render (h w hw)).no_line_end

section

variable {records : List Record} {ws : List Nat}

theorem Holds.word_lt (h : Holds records ws) (hword : ∀ r ∈ records, r.word < 0x100000000) :
    ∀ w ∈ ws, w < 0x100000000 := by
  intro w hw
  have ⟨k, hk, hkw⟩ := List.mem_iff_getElem.mp hw
  have hkw : ws[k]? = some w := by rw [List.getElem?_eq_getElem hk, hkw]
  rcases h k hk with ⟨r, hr, hrk⟩ | ⟨_, hzero⟩
  · have hmem : r ∈ recordsOn (size records) records k := by simp [hr]
    cases hkw.symm.trans hrk
    exact hword r (List.mem_of_mem_filter hmem)
  · cases hkw.symm.trans hzero
    decide

theorem Holds.getElem?_slot (h : Holds records ws) (hlen : (ws.length : Int) = size records)
    {r : Record} (hr : r ∈ records) (h₀ : 0 ≤ slot (size records) r) :
    ws[(slot (size records) r).toNat]? = some r.word := by
  have hlt := slot_lt_size hr
  have hmem : r ∈ recordsOn (size records) records (slot (size records) r).toNat :=
    List.mem_filter.mpr ⟨hr, decide_eq_true (Int.toNat_of_nonneg h₀).symm⟩
  rcases h (slot (size records) r).toNat (by omega) with ⟨r', hr', hword⟩ | ⟨hnil, _⟩
  · rw [hr', List.mem_singleton] at hmem
    rw [hword, hmem]
  · simp [hnil] at hmem

theorem Holds.line_written (h : Holds records ws) (hword : ∀ r ∈ records, r.word < 0x100000000)
    (f : WordFormat) {k w : Nat} (hk : ws[k]? = some w) :
    ∃ line, (Text.lines (render f ws))[k]? = some line ∧ f.Writes line w := by
  have hlt := h.word_lt hword
  rw [lines_render hlt]
  exact ⟨f.render w, by simp [hk], f.writes_render (hlt w (List.mem_of_getElem? hk))⟩

theorem recordsOn_eq_recordsAt {n : Int} (h₀ : ∀ r ∈ records, 0 ≤ wordIndex r.address) (k : Nat) :
    recordsOn n records k = recordsAt records k :=
  List.filter_congr fun r hr => by rw [slot_eq_wordIndex (h₀ r hr)]

theorem Holds.shows (h : Holds records ws) (hlen : (ws.length : Int) = size records)
    (h₀ : ∀ r ∈ records, 0 ≤ wordIndex r.address) (hword : ∀ r ∈ records, r.word < 0x100000000)
    (f : WordFormat) : Shows f records (Text.lines (render f ws)) := by
  have hlines : (Text.lines (render f ws)).length = ws.length := by
    rw [lines_render (h.word_lt hword), List.length_map]
  constructor
  case length =>
    rcases size_eq records with ⟨hnil, hsize⟩ | ⟨r, hr, hle, hsize⟩
    · exact .inl ⟨hnil, List.eq_nil_of_length_eq_zero (by omega)⟩
    · exact .inr ⟨r, hr, hle, by rw [hlines, hlen, hsize]⟩
  case line =>
    intro k hk
    rw [hlines] at hk
    rcases h k hk with ⟨r, hr, hrk⟩ | ⟨hnil, hzero⟩
    · have ⟨line, hline, hwrites⟩ := h.line_written hword f hrk
      exact ⟨line, _, hline, hwrites, .inl ⟨r, recordsOn_eq_recordsAt h₀ k ▸ hr, rfl⟩⟩
    · have ⟨line, hline, hwrites⟩ := h.line_written hword f hzero
      exact ⟨line, _, hline, hwrites, .inr ⟨recordsOn_eq_recordsAt h₀ k ▸ hnil, rfl⟩⟩
  case kept =>
    intro r hr
    have hslot : slot (size records) r = wordIndex r.address := slot_eq_wordIndex (h₀ r hr)
    have hkept := h.getElem?_slot hlen hr (hslot ▸ h₀ r hr)
    exact ⟨h₀ r hr, hslot ▸ h.line_written hword f hkept⟩

end

end Image

theorem Object.Steps.wordIndex_nonneg {o : Object} {codeStart dataStart : Int}
    (h : Steps (new codeStart dataStart) o) (hcode : 0 ≤ codeStart) (hdata : 0 ≤ dataStart) :
    ∀ r ∈ o.records, 0 ≤ Image.wordIndex r.address := by
  intro r hr
  have hplaced := (((isTidy_new codeStart dataStart).steps h).placed r hr).left
  rw [h.start_eq] at hplaced
  have hstart : 0 ≤ ((new codeStart dataStart).getSection r.sect).start := by
    cases r.sect
    case text => exact hcode
    case data => exact hdata
  exact Int.ediv_nonneg (Int.le_trans hstart hplaced) (by decide)

namespace Command

-- Wherever the sections start, the word file of a program shows its records.
theorem word_file_shows_records (cpu : Cpu) (codeStart dataStart : Int) (hcode : 0 ≤ codeStart)
    (hdata : 0 ≤ dataStart) (lines : List String) :
    ∃ t, (Session.new cpu codeStart dataStart).assemble lines = .ok t ∧
      (Layout.checkOverlap t.object.text.start t.object.text.size t.object.data.start
          t.object.data.size = .ok () →
        ∃ ws, Image.words t.object.records = .ok ws ∧
          (∀ f, Image.Shows f t.object.records (Text.lines (Image.render f ws))) ∧
          ∀ (host : Host) (o : Options) (g : Progress), host.canWrite o.output →
            host.HasMemory t.object.records →
            Ensures (writeFiles host o t) g
              (fun _ => Wrote o.output (Image.render o.wordFormat ws) g)
              (fun _ => Wrote o.output (Image.render o.wordFormat ws) g)) := by
  have ⟨t, ht, _⟩ := Session.assembleFrom_ok 1 (Session.new cpu codeStart dataStart) lines
  refine ⟨t, ht, fun hcheck => ?_⟩
  have hsteps := Session.assembleFrom_object_steps ht
  have htidy := (Object.isTidy_new codeStart dataStart).steps hsteps
  have hindex := hsteps.wordIndex_nonneg hcode hdata
  have ⟨ws, hwords, hlen, hholds⟩ := Image.words_ok (htidy.pairwise_wordIndex_ne hcheck) hindex
  refine ⟨ws, hwords, hholds.shows hlen hindex htidy.word_lt, fun host o g houtput hmemory => ?_⟩
  exact writeFiles_wrote (Image.build_of_words hmemory hwords) houtput

theorem word_file_shows_records_unaligned :
    ∃ t content, (Session.new .mc88100 2 6).assemble [".word 1", ".data", ".word -2"] = .ok t ∧
      Text.lines content = ["00000001", "FFFFFFFE"] ∧
      Image.Shows .hex t.object.records (Text.lines content) ∧
      Ensures
        (writeFiles (Host.holding "")
          ⟨"a.s", "a.out", .mc88100, "code=2,data=6", .hex, .hex, true, false, false, false⟩ t)
        ⟨[], []⟩ (fun _ => Wrote "a.out" content ⟨[], []⟩)
        (fun _ => Wrote "a.out" content ⟨[], []⟩) := by
  obtain ⟨t, ht, hcheck, hmemory, ws, hwords, hlines⟩ :
      ∃ t, (Session.new .mc88100 2 6).assemble [".word 1", ".data", ".word -2"] = .ok t ∧
        Layout.checkOverlap t.object.text.start t.object.text.size t.object.data.start
          t.object.data.size = .ok () ∧
        (Host.holding "").HasMemory t.object.records ∧
        ∃ ws, Image.words t.object.records = .ok ws ∧
          Text.lines (Image.render .hex ws) = ["00000001", "FFFFFFFE"] := by
    decide +kernel
  obtain ⟨t', ht', himage⟩ := word_file_shows_records .mc88100 2 6 (by decide) (by decide)
    [".word 1", ".data", ".word -2"]
  cases ht.symm.trans ht'
  obtain ⟨ws', hwords', hshows, hwrites⟩ := himage hcheck
  cases hwords.symm.trans hwords'
  exact ⟨t, _, ht, hlines, hshows .hex, hwrites _ _ _ rfl hmemory⟩

end Command
end Asm88000
