import NtripCaster.Mountpoint.Manager

/-!
# The sourcetable

`internal/sourcetable/generator.go`.
-/

namespace NtripCaster

/-- The `STR` record of a mountpoint, with its line end. -/
def strRecord (mp : MountPoint) : Bytes :=
  ascii "STR;" ++ mp.name ++ ascii ";" ++ mp.description ++ ascii ";" ++ mp.format ++
    ascii ";;;;;;;;;0;;;;;" ++ ascii "\r\n"

/-- `Generate`: one record for each enabled mountpoint, in the order of `List`. -/
def generate (ord : RangeOrder MountPoint) (mgr : Manager) : Bytes :=
  ascii "SOURCETABLE 200 OK\r\n" ++
    (((mgr.list ord).filter MountPoint.enabled).flatMap strRecord) ++ ascii "ENDSOURCETABLE\r\n"

end NtripCaster
