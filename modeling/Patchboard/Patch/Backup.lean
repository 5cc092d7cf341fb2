import Patchboard.Path

set_option autoImplicit false

namespace Patchboard.Backup

def ofSettings (p : Path) : Path :=
  let stem := p.stem?.getD [] ++ "_bak".toList
  p.withFileName <|
    match p.extension? with
    | some extension => stem ++ '.' :: extension
    | none => stem

def ofFile (p : Path) (settings : Option Path) : Path :=
  if settings.any (Path.same p) then ofSettings p
  else p.withFileName (p.fileName?.getD [] ++ ".bak".toList)

end Patchboard.Backup
