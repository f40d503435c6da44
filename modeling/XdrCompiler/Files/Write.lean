/-
# XdrCompiler.Files.Write -- writing the generated file

The output directory is made first, with all directories above it, and the file
is written into it in one piece. A refusal leaves every file as it was; only
directories may have been added.

Last, the file is looked up again under its absolute path. If that is too long
the run is refused with the file already written. This is the one exception.
-/
import XdrCompiler.Files.Tree
import XdrCompiler.Text.Lines

namespace XdrCompiler

/-- Writes `text` to the file `fileName` in the directory `dir`. -/
def Tree.writeSource (t : Tree) (dir : Path) (fileName text : String) :
    Tree × Except Failure Written :=
  if dir.hasNul then (t, .error (.internal .nulInPath))
  else
    match t.makeDirectories dir with
    | (t', .error e) => (t', .error (.system e))
    | (t', .ok _) =>
      let target := dir.join (Path.ofString fileName)
      if target.hasNul then (t', .error (.internal .nulInPath))
      else
        match t'.writeText target text with
        | .error e => (t', .error (.system e))
        | .ok (t'', loc) =>
          let path := loc.text
          if Path.isOverlongText path then
            (t'', .error (.system (.refused .nameTooLong path)))
          else
            (t'', .ok {
              fileName := fileName
              path := path
              lineCount := Text.countNewlines text
              byteCount := text.utf8ByteSize })

end XdrCompiler
