import VirtualFiles.FileSystem.BufferedWriter
import VirtualFiles.Proofs.FileSystem.Growth

/-!
# What a buffered writer has written

All bytes given to a writer are in the file or kept back, in their order. Fewer bytes than the
buffer holds are all kept back, so until then the file is as empty as it was when it was opened,
and whoever reads it sees nothing of them.

## Main definitions

* `FileSystem.withContent` — a file system in which a file has another content
* `BufferedWriter.Holds` — the bytes given to a writer are in the file or kept back

## Main results

* `Holds.write`, `Holds.flush`, `Holds.close` — the steps of a writer succeed and lose nothing
-/

namespace VirtualFiles

namespace FileSystem

/-- The file system in which the file has this content. -/
def withContent (fs : FileSystem) (id : NodeId) (content : Bytes) : FileSystem :=
  fs.replace id (.regular content)

variable {fs : FileSystem} {id : NodeId} {content bytes : Bytes} {old : Node}

theorem node?_withContent (h : fs.node? id = some old) :
    (fs.withContent id content).node? id = some (.regular content) := node?_replace_self h

/-- Writing at the end of a file. -/
theorem append_withContent (h : fs.node? id = some old) :
    (fs.withContent id content).append id bytes = .ok (fs.withContent id (content ++ bytes)) := by
  rw [append]
  split
  · next hnothing => rw [hnothing, List.append_nil]
  · simp only [node?_withContent h]
    rw [withContent, replace_replace, withContent]

end FileSystem

namespace BufferedWriter

open FileSystem

variable {base fs : FileSystem} {target : NodeId} {old : Node} {w : BufferedWriter}
variable {bytes piece : Bytes}

/-- The writer was given `bytes` for the file `target` of `base`, which was empty. What it keeps
back comes after what is in the file, and fewer bytes than it can keep back are not in the file. -/
inductive Holds (base : FileSystem) (target : NodeId) (bytes : Bytes) :
    FileSystem → BufferedWriter → Prop
  | intro (flushed pending : Bytes) (split : bytes = flushed ++ pending)
    (early : bytes.length < capacity → flushed = []) :
    Holds base target bytes (base.withContent target flushed) ⟨target, pending⟩

/-- Who keeps nothing back leaves the files as they are. -/
theorem close_of_nothing : (⟨target, []⟩ : BufferedWriter).close fs = fs := rfl

namespace Holds

/-- A writer that was given nothing. -/
theorem start : Holds base target [] (base.withContent target []) ⟨target, []⟩ :=
  .intro [] [] rfl fun _ => rfl

/-- Handing everything to the file succeeds. -/
theorem flush (h : Holds base target bytes fs w) (htarget : base.node? target = some old) :
    w.flush fs = ⟨.ok (), base.withContent target bytes, ⟨target, []⟩⟩ := by
  obtain ⟨flushed, pending, rfl, -⟩ := h
  simp only [BufferedWriter.flush, append_withContent htarget]

/-- Whoever gives up the writer leaves all bytes in the file. -/
theorem close (h : Holds base target bytes fs w) (htarget : base.node? target = some old) :
    w.close fs = base.withContent target bytes := by
  rw [BufferedWriter.close, h.flush htarget]

/-- A piece that has room beside what is kept back is kept back too, or goes to the file if it
fills the buffer by itself. -/
theorem place (flushed pending piece : Bytes) (htarget : base.node? target = some old)
    (hroom : piece.length < capacity ∨ pending = [])
    (early : (flushed ++ pending ++ piece).length < capacity → flushed = []) :
    ∃ files writer, (⟨target, pending⟩ : BufferedWriter).place (base.withContent target flushed)
        piece = ⟨.ok (), files, writer⟩ ∧
      Holds base target (flushed ++ pending ++ piece) files writer := by
  by_cases hsmall : piece.length < capacity
  · refine ⟨_, _, by rw [BufferedWriter.place, if_pos hsmall], ?_⟩
    exact .intro flushed (pending ++ piece) (List.append_assoc _ _ _) early
  · obtain rfl : pending = [] := hroom.resolve_left hsmall
    refine ⟨_, _, by rw [BufferedWriter.place, if_neg hsmall, append_withContent htarget], ?_⟩
    refine .intro (flushed ++ piece) [] (by simp) fun hfew => ?_
    simp only [List.length_append] at hfew
    omega

/-- Writing succeeds, and the writer holds the new bytes after the others. -/
theorem write (h : Holds base target bytes fs w) (htarget : base.node? target = some old)
    (piece : Bytes) : ∃ files writer, w.write fs piece = ⟨.ok (), files, writer⟩ ∧
      Holds base target (bytes ++ piece) files writer := by
  have hflush := h.flush htarget
  obtain ⟨flushed, pending, rfl, early⟩ := h
  rw [BufferedWriter.write]
  split
  · next hroom =>
    change pending.length + piece.length ≤ capacity at hroom
    refine place flushed pending piece htarget ?_ fun hfew => early ?_
    · by_cases hnothing : pending = []
      · exact .inr hnothing
      · have := List.length_pos_iff.mpr hnothing
        exact .inl (by omega)
    · simp only [List.length_append] at hfew ⊢
      omega
  · next hfull =>
    -- everything before the piece is in the file, and together they fill the buffer
    change ¬ pending.length + piece.length ≤ capacity at hfull
    have hplaced := place (flushed ++ pending) [] piece htarget (.inr rfl) fun hfew => by
      simp only [List.length_append, List.length_nil] at hfew
      omega
    rw [List.append_nil] at hplaced
    simpa only [hflush] using hplaced

end Holds

end BufferedWriter

end VirtualFiles
