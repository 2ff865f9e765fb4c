import Asm88000.Command
import Asm88000.Proofs.Ensures

namespace Asm88000

-- There is memory for the image of some records.
def Host.HasMemory (host : Host) (records : List Record) : Prop :=
  host.allocate (Image.size records) = .ok ()

theorem Host.isOk_iff_hasMemory {host : Host} {records : List Record} :
    (host.allocate (Image.size records)).isOk ↔ host.HasMemory records := by
  unfold HasMemory
  cases host.allocate (Image.size records) <;> simp [Except.isOk, Except.toBool]

instance (host : Host) (records : List Record) : Decidable (host.HasMemory records) :=
  decidable_of_iff _ Host.isOk_iff_hasMemory

-- A machine on which the text is all that there is to read. It writes and shows everything, and has
-- memory for as many words as it can count.
def Host.holding (text : String) : Host where
  read _     := .bytes text.toUTF8
  canWrite _ := true
  same _ _   := false
  allocate n := if n < 0x8000000000000000 then .ok () else .error .outOfRange
  shows _    := true

namespace Image

variable {host : Host} {records : List Record} {ws : List Nat}

theorem build_of_words (h : host.HasMemory records) (hwords : words records = .ok ws) :
    build host.allocate records = .ok ws := by
  rw [build, h]
  exact hwords

theorem build_eq_error (h : ¬host.HasMemory records) :
    ∃ b, build host.allocate records = .error b := by
  cases hmemory : host.allocate (size records)
  case ok      => exact absurd hmemory h
  case error b => exact ⟨b, bind_eq_error.mpr (.inl hmemory)⟩

theorem hasMemory_of_build (h : build host.allocate records = .ok ws) :
    host.HasMemory records := by
  obtain ⟨_, hmemory, _⟩ := bind_eq_ok.mp h
  exact hmemory

end Image

namespace Command

open Discipline

variable {α β : Type} {host : Host} {o : Options} {s : Session}
variable {p : CommandM α} {f : α → CommandM β} {a : α} {g : Progress} {written : List OutputFile}
variable {Q : β → Progress → Prop} {E : Stop → Progress → Prop}

def Yields (p : CommandM α) (g : Progress) (a : α) (written : List OutputFile) : Prop :=
  Ensures p g (fun b g' => b = a ∧ g'.files = g.files ++ written) fun _ _ => False

theorem Yields.counting {g' : Progress} {all : List OutputFile} (h : Yields p g' a written)
    (hall : g'.files ++ written = all) :
    Ensures p g' (fun b g'' => b = a ∧ g''.files = all) fun _ _ => False :=
  h.mono (fun _ _ h => ⟨h.left, h.right.trans hall⟩) fun _ _ => id

theorem Yields.andThen (h : Yields p g a written)
    (hf : ∀ g', g'.files = g.files ++ written → Ensures (f a) g' Q E) : Ensures (p >>= f) g Q E :=
  h.bind (fun _ g' hg' => hg'.left ▸ hf g' hg'.right) fun _ _ => False.elim

theorem Yields.optional {c : Bool} {p : CommandM Unit} {f : Unit → CommandM β}
    (h : c → Yields p g () written)
    (hf : ∀ g', g'.files = g.files ++ (if c then written else []) → Ensures (f ()) g' Q E) :
    Ensures (if c then p >>= f else f ()) g Q E := by
  cases c
  case true  => exact (h rfl).andThen hf
  case false => exact hf g (List.append_nil _).symm

theorem yields_when {c : Bool} {p : CommandM Unit} (h : c → Yields p g () written) :
    Yields (if c then p else pure ()) g () (if c then written else []) := by
  cases c
  case true  => exact h rfl
  case false => exact ⟨rfl, (List.append_nil _).symm⟩

theorem yields_note (level : Level) (message : String) : Yields (note level message) g () [] :=
  ⟨rfl, (List.append_nil _).symm⟩

theorem ensures_write {path : String} {text : Option String} {Q : Unit → Progress → Prop}
    (h : host.canWrite path) :
    Ensures (write host path text) g Q E ↔ Q () { g with files := g.files ++ [⟨path, text⟩] } := by
  rw [write, if_pos h]
  rfl

theorem yields_write {path : String} {text : Option String} (h : host.canWrite path) :
    Yields (write host path text) g () [⟨path, text⟩] :=
  (ensures_write h).mpr ⟨rfl, rfl⟩

theorem yields_failOn {x : Except Breach α} (h : x = .ok a) : Yields (failOn x) g a [] := by
  subst h
  exact ⟨rfl, (List.append_nil _).symm⟩

theorem ensures_failOn_error {x : Except Breach α} {b : Breach} (h : x = .error b) :
    Ensures (failOn x >>= f) g Q E ↔ E .failure g := by
  subst h
  rfl

def programFiles (o : Options) (s : Session) (ws : List Nat) : List OutputFile :=
  ⟨o.output, some (Image.render o.wordFormat ws)⟩ ::
    if o.readable then [⟨o.listingPath, some (Listing.render o.listingFormat s)⟩] else []

theorem yields_writeListing (hlisting : host.canWrite o.listingPath)
    (hcomplete : Listing.isComplete s) :
    Yields (writeListing host o s) g ()
      [⟨o.listingPath, some (Listing.render o.listingFormat s)⟩] := by
  unfold writeListing
  refine (yields_write hlisting).andThen fun g₁ h₁ => ?_
  have hgoes : (!Listing.isComplete s) = false := by rw [hcomplete, Bool.not_true]
  rw [hgoes, if_neg Bool.false_ne_true]
  refine (yields_when fun _ => yields_note _ _).counting ?_
  simp [h₁]

theorem yields_writeFiles {ws : List Nat}
    (hbuild : Image.build host.allocate s.object.records = .ok ws)
    (houtput : host.canWrite o.output) (hlisting : o.readable → host.canWrite o.listingPath)
    (hcomplete : Listing.isComplete s) :
    Yields (writeFiles host o s) g () (programFiles o s ws) := by
  unfold writeFiles
  refine (yields_failOn hbuild).andThen fun g₁ h₁ => ?_
  refine (yields_write houtput).andThen fun g₂ h₂ => ?_
  refine Yields.optional (fun _ => yields_note _ _) fun g₃ h₃ => ?_
  have hwrites (hreadable : o.readable) :=
    yields_writeListing (g := g₃) (hlisting hreadable) hcomplete
  refine (yields_when hwrites).counting ?_
  simp [programFiles, h₃, h₂, h₁]

theorem build_of_writeFiles {Q : Unit → Progress → Prop}
    (h : Ensures (writeFiles host o s) g Q fun _ _ => False) :
    ∃ ws, Image.build host.allocate s.object.records = .ok ws := by
  cases hbuild : Image.build host.allocate s.object.records
  case ok ws   => exact ⟨ws, rfl⟩
  case error b =>
    unfold writeFiles at h
    exact ((ensures_failOn_error hbuild).mp h).elim

def Wrote (path text : String) (g g' : Progress) : Prop :=
  ∃ rest, g'.files = g.files ++ ⟨path, some text⟩ :: rest

def growing : Discipline Stop Progress where
  valid _ := True
  rel g g' := ∃ rest, g'.files = g.files ++ rest
  fails _ := True
  refl _ := ⟨[], (List.append_nil _).symm⟩
  trans := by
    rintro g g' g'' ⟨rest, h⟩ ⟨rest', h'⟩
    exact ⟨rest ++ rest', by rw [h', h, List.append_assoc]⟩
  keeps _ _ := trivial

theorem wrote_of_growing {path text : String} {g' : Progress}
    (h : growing.rel { g with files := g.files ++ [⟨path, some text⟩] } g') :
    Wrote path text g g' := by
  obtain ⟨rest, hfiles⟩ := h
  exact ⟨rest, by rw [hfiles, List.append_assoc]; rfl⟩

theorem note_growing (level : Level) (message : String) : growing.Obeys (note level message) :=
  .modify fun g _ => growing.refl g

theorem write_growing (path : String) (text : Option String) :
    growing.Obeys (write host path text) :=
  .ite (.modify fun _ _ => ⟨_, rfl⟩) (.throw trivial)

theorem writeListing_growing : growing.Obeys (writeListing host o s) := by
  have hnote : growing.Obeys (do
      if o.verbose then note .info ("Wrote readable text file => " ++ o.listingPath)) :=
    .ite (note_growing _ _) (.pure ())
  unfold writeListing
  refine (write_growing _ _).bind fun _ => .ite ?_ hnote
  exact .bind (.throw trivial) fun _ => hnote

theorem writeFiles_wrote {ws : List Nat}
    (hbuild : Image.build host.allocate s.object.records = .ok ws)
    (houtput : host.canWrite o.output) :
    Ensures (writeFiles host o s) g
      (fun _ => Wrote o.output (Image.render o.wordFormat ws) g)
      (fun _ => Wrote o.output (Image.render o.wordFormat ws) g) := by
  have hlisting : growing.Obeys (do if o.readable then writeListing host o s) :=
    .ite writeListing_growing (.pure ())
  have hrest (message : String) :=
    Obeys.ite (c := o.verbose) ((note_growing .info message).bind fun _ => hlisting) hlisting
  unfold writeFiles
  simp only [hbuild, failOn, ensures_bind, ensures_pure, ensures_write houtput]
  refine (hrest _ _ trivial).mono (fun _ g' hg' => ?_) fun _ g' hg' => ?_
  · exact wrote_of_growing hg'
  · exact wrote_of_growing hg'.left

end Command
end Asm88000
