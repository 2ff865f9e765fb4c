import Mathlib.Data.List.Count
import Mathlib.Data.List.Nodup
import Asm88000.Proofs.Image
import Asm88000.Proofs.Provenance

namespace Asm88000

namespace Session

variable {s t u u' v v' : Session} {lines : List String} {n n' i : Nat} {l l' : String}

def Emits (s : Session) (lines : List String) (n : Nat) (l : String) (i : Nat) : Prop :=
  ∃ u v, s.Passes lines n l u v ∧ u.object.records.length ≤ i ∧ i < v.object.records.length

theorem Passes.records_le (h : s.Passes lines n l u v) (h' : s.Passes lines n' l' u' v')
    (hlt : n < n') : v.object.records.length ≤ u'.object.records.length := by
  have htake : lines.take n' = lines.take (n + 1) ++ (lines.take n').drop (n + 1) := by
    conv_lhs => rw [← List.take_append_drop (n + 1) (lines.take n')]
    rw [List.take_take, Nat.min_eq_left hlt]
  have hbefore := h'.before
  rw [htake, assemble, assembleFrom_append] at hbefore
  obtain ⟨v₀, hv₀, hrest⟩ := bind_eq_ok.mp hbefore
  cases hv₀.symm.trans h.next
  have hsteps := assembleFrom_object_steps hrest
  exact hsteps.records_prefix.length_le

theorem Emits.unique (h : s.Emits lines n l i) (h' : s.Emits lines n' l' i) : n' = n ∧ l' = l := by
  obtain ⟨u, v, hp, hle, hlt⟩ := h
  obtain ⟨u', v', hp', hle', hlt'⟩ := h'
  obtain rfl : n' = n := by
    rcases Nat.lt_trichotomy n n' with hn | hn | hn
    · have := hp.records_le hp' hn
      omega
    · exact hn.symm
    · have := hp'.records_le hp hn
      omega
  exact ⟨rfl, Option.some.inj (hp'.line.symm.trans hp.line)⟩

-- What is known of a session after a number of lines: their texts, the line of every record, and
-- that the names of symbols come from the source.
structure Traces (s : Session) (lines : List String) (n : Nat) (u : Session) : Prop where
  sources : ∀ k l, k < n → lines[k]? = some l → u.source (k + 1 : Nat) = Text.trim (dropLineEnds l)
  records : ∀ i r, u.object.records[i]? = some r →
    ∃ k l, k < n ∧ s.Emits lines k l i ∧ r.IsIn (k + 1 : Nat)
  symbols : ∀ x ∈ u.object.symbols, Lexer.isIdentifier x.name.toList

theorem traces_new (cpu : Cpu) (codeStart dataStart : Int) (lines : List String) :
    (new cpu codeStart dataStart).Traces lines 0 (new cpu codeStart dataStart) where
  sources _ _ hk := absurd hk (Nat.not_lt_zero _)
  records        := by simp [new, Object.new]
  symbols        := by simp [new, Object.new]

theorem source_addSource (s : Session) (line k : Int) (text : String) :
    (s.addSource line text).source k = if k = line then text else s.source k := by
  simp only [source, addSource, List.lookup_cons]
  split
  case h_1 heq => rw [if_pos (beq_iff_eq.mp heq), Option.getD_some]
  case h_2 hne => rw [if_neg (beq_eq_false_iff_ne.mp hne)]

theorem Gains.source_eq {line : Int} (h : s.Gains line t) (k : Int) : t.source k = s.source k := by
  rw [source, h.sources, source]

theorem Traces.next (h : s.Traces lines n u) (hp : s.Passes lines n l u v) :
    s.Traces lines (n + 1) v := by
  have hgains := assembleLine_gains hp.after
  constructor
  case sources =>
    intro k l' hk hl'
    rw [hgains.source_eq, source_addSource]
    split
    case isTrue hkn =>
      obtain rfl : k = n := by omega
      cases hp.line.symm.trans hl'
      rfl
    case isFalse hkn => exact h.sources k l' (by omega) hl'
  case records =>
    obtain ⟨rs, hrs, hin⟩ := hgains.records
    have hrs : v.object.records = u.object.records ++ rs := hrs
    intro i r hr
    rcases Nat.lt_or_ge i u.object.records.length with hi | hi
    · rw [hrs, List.getElem?_append_left hi] at hr
      obtain ⟨k, l', hk, hemits⟩ := h.records i r hr
      exact ⟨k, l', Nat.lt_succ_of_lt hk, hemits⟩
    · obtain ⟨hlt, _⟩ := List.getElem?_eq_some_iff.mp hr
      rw [hrs, List.getElem?_append_right hi] at hr
      exact ⟨n, l, Nat.lt_succ_self n, ⟨u, v, hp, hi, hlt⟩, hin r (List.mem_of_getElem? hr)⟩
  case symbols =>
    obtain ⟨ss, hss, hname⟩ := hgains.symbols
    rw [hss]
    exact List.forall_mem_append.mpr ⟨h.symbols, hname⟩

theorem assemble_traces (cpu : Cpu) (codeStart dataStart : Int) (lines : List String) :
    ∃ t, (new cpu codeStart dataStart).assemble lines = .ok t ∧
      (new cpu codeStart dataStart).Traces lines lines.length t :=
  (assemble_invariant (traces_new cpu codeStart dataStart lines) fun _ _ _ _ hp h => h.next hp).left

end Session

def Symbol.Marks (x : Symbol) (r : Record) : Prop :=
  x.sect = r.sect ∧ x.address = r.address

instance (x : Symbol) (r : Record) : Decidable (x.Marks r) :=
  inferInstanceAs (Decidable (x.sect = r.sect ∧ x.address = r.address))

namespace Listing

-- The lines for a record from a source line with some text: the labels in the order of their
-- definition, and four columns with the fixups behind them.
def blockFor (f : ListingFormat) (o : Object) (r : Record) (text : String) : List String :=
  (o.symbols.filter (·.Marks r)).map (·.name ++ ":") ++
    [String.intercalate " | " [Numeral.lowerHexWord.render r.address, f.render r.word, r.sect.name,
      text] ++ fixupText r.fixups]

-- The lines show the records of a program, block by block, each with the text of the one line that
-- has emitted it. A label is shown once if there is a record at its address, and never otherwise.
structure Shows (s : Session) (lines : List String) (f : ListingFormat) (t : Session)
    (ls : List String) : Prop where
  blocks : ∃ bs : List (List String), ls = bs.flatten ∧ bs.length = t.object.records.length ∧
    ∀ i r, t.object.records[i]? = some r →
      ∃ n l, s.Emits lines n l i ∧ (∀ n' l', s.Emits lines n' l' i → n' = n ∧ l' = l) ∧
        bs[i]? = some (blockFor f t.object r (Text.trim (Session.dropLineEnds l)))
  labels : ∀ x ∈ t.object.symbols,
    ls.count (x.name ++ ":") = if ∃ r ∈ t.object.records, x.Marks r then 1 else 0

section

variable {f : ListingFormat} {s t : Session} {lines : List String} {n i : Nat} {r : Record}

theorem block_eq (f : ListingFormat) (t : Session) (r : Record) :
    block f t r = blockFor f t.object r (sourceOf t r) := by
  have hlabels : labelsAt t.object r = (t.object.symbols.filter (·.Marks r)).map Symbol.name := by
    refine congrArg (List.map Symbol.name) (List.filter_congr fun x _ => ?_)
    rw [← Bool.decide_and]
    exact decide_eq_decide.mpr Iff.rfl
  rw [block, blockFor, hlabels, List.map_map]
  simp [recordLine, String.append_assoc]

theorem sourceOf_eq (h : s.Traces lines n t) (hr : t.object.records[i]? = some r) :
    ∃ k l, s.Emits lines k l i ∧ sourceOf t r = Text.trim (Session.dropLineEnds l) := by
  obtain ⟨k, l, hk, ⟨u, v, hpasses, hindex⟩, ⟨loc, hloc, hline⟩, _⟩ := h.records i r hr
  refine ⟨k, l, ⟨u, v, hpasses, hindex⟩, ?_⟩
  simp only [sourceOf, hloc, hline]
  exact h.sources k l hk hpasses.line

theorem isLine_fixupText (h : ∀ x ∈ r.fixups, x.IsParsed) :
    Text.IsLine (fixupText r.fixups) := by
  unfold fixupText
  split
  case isTrue  => decide
  case isFalse =>
    refine Text.isLine_append.mpr ⟨by decide, Text.isLine_intercalate (by decide) fun text ht => ?_⟩
    obtain ⟨x, hx, rfl⟩ := List.mem_map.mp ht
    have hkind : ∀ k ∈ FixupKind.all, Text.IsLine k.name := by decide
    simp only [Fixup.toText, Text.isLine_append, hkind _ (h x hx).kind, (h x hx).expr.isLine_toText]
    decide

theorem isLine_render (f : ListingFormat) (word : Nat) : Text.IsLine (f.render word) := by
  cases f
  case hex =>
    exact Text.isLine_append.mpr ⟨by decide,
      Numeral.isLine_render (f := .hexWord) (by decide) (by decide) word⟩
  case dec => exact Numeral.isLine_render (f := .decimal) (by decide) (by decide) word

theorem isLine_blockFor {text : String} {o : Object}
    (hnames : ∀ x ∈ o.symbols, Lexer.isIdentifier x.name.toList)
    (hfixups : ∀ x ∈ r.fixups, x.IsParsed) (htext : Text.IsLine text) :
    ∀ line ∈ blockFor f o r text, Text.IsLine line := by
  intro line hline
  rcases List.mem_append.mp hline with hline | hline
  · obtain ⟨x, hx, rfl⟩ := List.mem_map.mp hline
    exact Text.isLine_append.mpr
      ⟨Text.isLine_of_isIdentifier (hnames x (List.mem_of_mem_filter hx)), by decide⟩
  · obtain rfl := List.mem_singleton.mp hline
    refine Text.isLine_append.mpr ⟨Text.isLine_intercalate (by decide) ?_, isLine_fixupText hfixups⟩
    have haddress : Text.IsLine (Numeral.lowerHexWord.render r.address) :=
      Numeral.isLine_render (by decide) (by decide) r.address
    have hsect : Text.IsLine r.sect.name := by cases r.sect <;> decide
    simp only [List.forall_mem_cons]
    exact ⟨haddress, isLine_render f r.word, hsect, htext, List.forall_mem_nil _⟩

theorem label_ne_recordLine (f : ListingFormat) (r : Record) (text : String) {x : Symbol}
    (hname : Lexer.isIdentifier x.name.toList) :
    x.name ++ ":" ≠ String.intercalate " | " [Numeral.lowerHexWord.render r.address,
      f.render r.word, r.sect.name, text] ++ fixupText r.fixups := by
  intro heq
  have hblank : ' ' ∈ (x.name ++ ":").toList := by
    rw [heq]
    simp
  rcases List.mem_append.mp (String.toList_append ▸ hblank) with hblank | hblank
  · exact absurd (Lexer.isIdentifierChar_of_mem hname hblank) (by decide)
  · exact absurd hblank (by decide)

theorem count_blockFor {o : Object} {x : Symbol} {text : String}
    (hnames : ∀ x ∈ o.symbols, Lexer.isIdentifier x.name.toList)
    (hnodup : (o.symbols.map Symbol.name).Nodup) (hx : x ∈ o.symbols) :
    (blockFor f o r text).count (x.name ++ ":") = if x.Marks r then 1 else 0 := by
  have hinj : Function.Injective fun name : String => name ++ ":" :=
    fun _ _ => (String.append_left_inj ":").mp
  have hsymbols : ((o.symbols.filter (·.Marks r)).map Symbol.name).Nodup :=
    (List.filter_sublist.map Symbol.name).nodup hnodup
  -- The one symbol with the name is `x`.
  have hmem : x.name ∈ (o.symbols.filter (·.Marks r)).map Symbol.name ↔ x.Marks r := by
    rw [List.mem_map]
    constructor
    · rintro ⟨y, hy, hname⟩
      obtain ⟨hy, hmarks⟩ := List.mem_filter.mp hy
      obtain rfl := List.inj_on_of_nodup_map hnodup hy hx hname
      exact of_decide_eq_true hmarks
    · exact fun hmarks => ⟨x, List.mem_filter.mpr ⟨hx, decide_eq_true hmarks⟩, rfl⟩
  have hlabels : ((o.symbols.filter (·.Marks r)).map (·.name ++ ":")).count (x.name ++ ":") =
      ((o.symbols.filter (·.Marks r)).map Symbol.name).count x.name := by
    rw [← List.count_map_of_injective _ _ hinj x.name, List.map_map]
    rfl
  have hline := label_ne_recordLine f r text (hnames x hx)
  rw [blockFor, List.count_append, List.count_singleton, beq_false_of_ne hline.symm, hlabels,
    hsymbols.count]
  simp [hmem]

-- No two records of a section have the same address, so that a label is in one block at most.
theorem count_blocks {o : Object} {x : Symbol} {rs : List Record} {source : Record → String}
    (hnames : ∀ x ∈ o.symbols, Lexer.isIdentifier x.name.toList)
    (hnodup : (o.symbols.map Symbol.name).Nodup) (hx : x ∈ o.symbols)
    (hspaced : rs.Pairwise fun r r' => r.sect = r'.sect → r.address + wordSize ≤ r'.address) :
    (rs.flatMap fun r => blockFor f o r (source r)).count (x.name ++ ":") =
      if ∃ r ∈ rs, x.Marks r then 1 else 0 := by
  induction rs
  case nil          => simp
  case cons r rs ih =>
    obtain ⟨hr, hrs⟩ := List.pairwise_cons.mp hspaced
    rw [List.flatMap_cons, List.count_append, count_blockFor hnames hnodup hx, ih hrs]
    by_cases hmarks : x.Marks r
    case neg => simp [hmarks]
    case pos =>
      have hrest : ¬∃ r' ∈ rs, x.Marks r' := by
        rintro ⟨r', hr', hmarks'⟩
        have hlt := hr r' hr' (hmarks.left.symm.trans hmarks'.left)
        have hword : (0 : Int) < wordSize := by decide
        have := hmarks.right
        have := hmarks'.right
        omega
      simp [hmarks, hrest]

theorem linesOf_eq {rs : List Record} (h : ∀ r ∈ rs, r.isNamed) :
    linesOf f t rs = rs.flatMap (block f t) := by
  induction rs
  case nil          => rfl
  case cons r rs ih =>
    obtain ⟨hr, hrs⟩ := List.forall_mem_cons.mp h
    rw [linesOf, if_pos hr, ih hrs, List.flatMap_cons]

theorem lines_eq (f : ListingFormat) (h : isComplete t) : Listing.lines f t =
    t.object.records.flatMap fun r => blockFor f t.object r (sourceOf t r) := by
  rw [Listing.lines, linesOf_eq (List.all_eq_true.mp h)]
  exact congrArg (List.flatMap · t.object.records) (funext (block_eq f t))

theorem shows_lines (h : s.Traces lines n t) (hcomplete : isComplete t) (htidy : t.object.IsTidy)
    (hlabelled : t.object.IsLabelled) (f : ListingFormat) :
    Shows s lines f t (Listing.lines f t) where
  blocks := by
    refine ⟨t.object.records.map fun r => blockFor f t.object r (sourceOf t r), ?_, by simp, ?_⟩
    · rw [lines_eq f hcomplete, List.flatMap_def]
    · intro i r hr
      obtain ⟨k, l, hemits, hsource⟩ := sourceOf_eq h hr
      exact ⟨k, l, hemits, fun _ _ => hemits.unique, by simp [hr, hsource]⟩
  labels x hx := by
    rw [lines_eq f hcomplete]
    exact count_blocks h.symbols hlabelled.nodup hx htidy.spaced

theorem isLine_lines (h : s.Traces lines n t) (hcomplete : isComplete t)
    (hlines : ∀ l ∈ lines, Text.IsLine (Session.dropLineEnds l)) :
    ∀ line ∈ Listing.lines f t, Text.IsLine line := by
  intro line hline
  rw [lines_eq f hcomplete] at hline
  obtain ⟨r, hr, hline⟩ := List.mem_flatMap.mp hline
  obtain ⟨i, hi⟩ := List.mem_iff_getElem?.mp hr
  obtain ⟨_, _, _, _, hin⟩ := h.records i r hi
  obtain ⟨_, l, ⟨_, _, hpasses, _⟩, hsource⟩ := sourceOf_eq h hi
  have htext : Text.IsLine (sourceOf t r) := by
    rw [hsource]
    exact Text.isLine_trim (hlines l (List.mem_of_getElem? hpasses.line))
  exact isLine_blockFor h.symbols hin.fixups htext line hline

theorem splitOn_render (h : ∀ line ∈ Listing.lines f t, Text.IsLine line) :
    Text.splitOn '\n' (render f t).toList = (Listing.lines f t).map String.toList ++ [[]] := by
  rw [render, Text.toList_join_lines, Text.splitOn_flatMap h]

end

end Listing

namespace Command

-- The listing of any program shows its records with their sources, and is what is written. This is
-- so even if the sections overlap.
theorem listing_shows_source (cpu : Cpu) (codeStart dataStart : Int) (hcode : 0 ≤ codeStart)
    (hdata : 0 ≤ dataStart) (lines : List String)
    (hlines : ∀ l ∈ lines, '\n' ∉ (Session.dropLineEnds l).toList) :
    ∃ t, (Session.new cpu codeStart dataStart).assemble lines = .ok t ∧
      (∀ f, ∃ ls, Text.splitOn '\n' (Listing.render f t).toList = ls.map String.toList ++ [[]] ∧
        Listing.Shows (Session.new cpu codeStart dataStart) lines f t ls) ∧
      ∀ (host : Host) (o : Options) (g : Progress), host.canWrite o.output → o.readable →
        host.canWrite o.listingPath → host.HasMemory t.object.records →
        ∃ g' image, writeFiles host o t g = .ok () g' ∧
          g'.files = g.files ++ [⟨o.output, some image⟩,
            ⟨o.listingPath, some (Listing.render o.listingFormat t)⟩] := by
  obtain ⟨t, ht, htraces⟩ := Session.assemble_traces cpu codeStart dataStart lines
  have hsteps := Session.assembleFrom_object_steps ht
  have htidy := Object.isTidy_new codeStart dataStart
  have hlabelled := (Object.isLabelled_new codeStart dataStart).steps htidy hsteps
  have hcomplete : Listing.isComplete t := Session.assemble_isNamed ht
  refine ⟨t, ht, fun f => ⟨Listing.lines f t, ?_, ?_⟩, ?_⟩
  · exact Listing.splitOn_render (Listing.isLine_lines htraces hcomplete hlines)
  · exact Listing.shows_lines htraces hcomplete (htidy.steps hsteps) hlabelled f
  · intro host o g houtput hreadable hlisting hmemory
    obtain ⟨ws, hwords⟩ := Image.words_exist (hsteps.wordIndex_nonneg hcode hdata)
    have hbuild := Image.build_of_words hmemory hwords
    have hyields := yields_writeFiles (g := g) hbuild houtput (fun _ => hlisting) hcomplete
    obtain ⟨_, g', hg', _, hfiles⟩ := hyields.exists_ok
    rw [programFiles, if_pos hreadable] at hfiles
    exact ⟨g', _, hg', hfiles⟩

-- The label `c` has the address of a record in the other section, and `e` that of none.
theorem listing_shows_source_sections :
    ∃ t, (Session.new .mc88100 0 4).assemble ["a: b: .word x-4, 7", ".data", "c: .align 8",
        "d: or %r2,%r0,lo16(y) | note", "e:"] = .ok t ∧
      Listing.Shows (Session.new .mc88100 0 4) ["a: b: .word x-4, 7", ".data", "c: .align 8",
        "d: or %r2,%r0,lo16(y) | note", "e:"] .hex t
        ["a:", "b:",
          "00000000 | 0x00000000 | .text | a: b: .word x-4, 7 <- fixup: FIXUP_M88K_32(x-4)",
          "00000004 | 0x00000007 | .text | a: b: .word x-4, 7",
          "d:",
          "00000008 | 0x58400000 | .data | d: or %r2,%r0,lo16(y) | note"
            ++ " <- fixup: FIXUP_M88K_LO16(lo16(y))"] := by
  obtain ⟨t, ht, hshows, _⟩ := listing_shows_source .mc88100 0 4 (by decide) (by decide)
    ["a: b: .word x-4, 7", ".data", "c: .align 8", "d: or %r2,%r0,lo16(y) | note", "e:"]
    (by decide +kernel)
  obtain ⟨ls, hls, hshows⟩ := hshows .hex
  have hrun : ((Session.new .mc88100 0 4).assemble ["a: b: .word x-4, 7", ".data", "c: .align 8",
      "d: or %r2,%r0,lo16(y) | note", "e:"]).toOption.any (fun t => Listing.lines .hex t =
        ["a:", "b:",
          "00000000 | 0x00000000 | .text | a: b: .word x-4, 7 <- fixup: FIXUP_M88K_32(x-4)",
          "00000004 | 0x00000007 | .text | a: b: .word x-4, 7",
          "d:",
          "00000008 | 0x58400000 | .data | d: or %r2,%r0,lo16(y) | note"
            ++ " <- fixup: FIXUP_M88K_LO16(lo16(y))"]) := by
    decide +kernel
  rw [ht] at hrun
  have hlines := of_decide_eq_true hrun
  have hrender := Listing.splitOn_render (f := .hex) (t := t) (by rw [hlines]; decide +kernel)
  have hls := List.append_cancel_right (hls.symm.trans hrender)
  rw [List.map_injective_iff.mpr (fun _ _ => String.toList_injective) hls, hlines] at hshows
  exact ⟨t, ht, hshows⟩

end Command
end Asm88000
