import HardwareDrivers.Theory.Faults
import HardwareDrivers.Theory.Slots
import Mathlib.Data.Finset.Lattice.Fold
import Mathlib.Order.Lattice.Nat

/-!
# The device table

`libfpgactl.c`: `devices` has a slot for each device that is open, with its name and its
descriptor, and `devices_num` is the number of them. `fpga_init` uses `devices_num` for the names
that it finds in its arguments as well. Everything that can fail outside is part of a call:
memory, `open`, `ioctl`, `opendir`, and what `getopt_long` and `readdir` find.

A name is compared and kept without `FPGA_DEVICE_PREFIX`, that is, from that many characters
on; a path that is shorter than that is read beyond its end, and the temporary list of `fpga_init`
has room for `FPGA_MAX_DEVICES` names only.
-/

namespace HardwareDrivers.Libfpga

open Theory

/-! ### The state -/

/-- A string, without the zero byte at its end. -/
abbrev CString := List Char

/-- `FILENAME_MAX`. -/
def filenameMax : ℕ := 4096

/-- `FPGA_MAX_DEVICES`. -/
def fpgaMaxDevices : ℕ := 16

/-- Where the driver has its files: `FPGA_DEVICE_DIR` and the rest of `FPGA_DEVICE_PREFIX`. -/
structure DeviceFiles where
  /-- `FPGA_DEVICE_DIR`. -/
  dir : CString
  /-- What the names of the files begin with. -/
  file : CString
  /-- The path of a file fits in a file name. -/
  fits : (dir ++ file).length + 255 < filenameMax

/-- `FPGA_DEVICE_PREFIX`. -/
def DeviceFiles.pre (files : DeviceFiles) : CString := files.dir ++ files.file

/-- `/dev/xpcie_`. -/
def serialIdFiles : DeviceFiles := ⟨"/dev/".toList, "xpcie_".toList, by decide⟩

/-- An entry of `devices`. -/
structure FpgaDeviceEntry where
  /-- `name`. -/
  name : CString
  /-- `fd`. -/
  fd : ℕ
  /-- `dev_id`. -/
  devId : BitVec 32
  /-- `task_id`. -/
  taskId : BitVec 16
  deriving DecidableEq

/-- An index of `devices`. -/
abbrev DevIndex := Fin fpgaMaxDevices

/-- The variables of `libfpgactl.c`, and the descriptors. -/
structure LibfpgactlState where
  /-- `devices`; a slot is free if its `name` is `NULL`. -/
  devices : Slots fpgaMaxDevices FpgaDeviceEntry
  /-- `devices_num`. -/
  devicesNum : ℤ
  /-- `xpcie_driver_version`. -/
  driverVersion : BitVec 32
  /-- The descriptors of device files that the library has opened and not closed. -/
  openFds : Finset ℕ
  /-- The descriptor of a directory that is open. -/
  dir : Option ℕ

/-- Before the first call. -/
def LibfpgactlState.start : LibfpgactlState := ⟨fun _ => none, 0, -1, ∅, none⟩

/-- The errors of `libfpgactl.c`. -/
inductive LibfpgactlErr where
  | invalidArgument | failureMemoryAlloc | failureDeviceOpen | fullElement | failureIoctl
  | alreadyInitialized | noDevices | notInitialized | failureOpen | fatalError
  deriving DecidableEq

/-- What the language does not define. -/
inductive CtlFault where
  /-- `tmp_filename[strlen(FPGA_DEVICE_PREFIX)]` is behind the end of the string. -/
  | overread
  /-- `device_name[devices_num++]` is behind the end of the list. -/
  | overrun
  deriving DecidableEq

namespace LibfpgactlState

/-- The descriptors that are open. -/
def used (s : LibfpgactlState) : Finset ℕ :=
  match s.dir with
  | none => s.openFds
  | some fd => insert fd s.openFds

/-- The descriptor that `open` gives, if it would give `fd`: one that is not open. -/
def fresh (s : LibfpgactlState) (fd : ℕ) : ℕ := if fd ∈ s.used then s.used.sup id + 1 else fd

/-- `open`. -/
def openFd (s : LibfpgactlState) (fd : ℕ) : LibfpgactlState :=
  { s with openFds := insert fd s.openFds }

/-- `close`. -/
def closeFd (s : LibfpgactlState) (fd : ℕ) : LibfpgactlState :=
  { s with openFds := s.openFds.erase fd }

/-- An entry is written, or cleared by `memset`. -/
def setDevice (s : LibfpgactlState) (index : DevIndex) (dev : Option FpgaDeviceEntry) :
    LibfpgactlState := { s with devices := Function.update s.devices index dev }

/-- `err_out` of `__fpga_dev_init`. -/
def errOut (s : LibfpgactlState) (index : DevIndex) (fd : ℕ) : LibfpgactlState :=
  (s.setDevice index none).closeFd fd

end LibfpgactlState

/-! ### Opening a device -/

/-- What `__fpga_dev_init` finds outside. -/
structure DevInitEnv where
  /-- There is memory for `tmp_filename`. -/
  filename : Bool
  /-- What `open` gives. -/
  fd : Option ℕ
  /-- What `XPCIE_DEV_DRIVER_GET_VERSION` gives. -/
  version : Option (BitVec 32)
  /-- What `XPCIE_DEV_DRIVER_GET_DEVICE_ID` gives. -/
  minor : Option (BitVec 32)
  /-- There is memory for the name. -/
  name : Bool
  /-- The ioctls of `fpga_update_info` go through. -/
  update : Bool

/-- `tmp_filename`. -/
def DeviceFiles.filename (files : DeviceFiles) (name : CString) : CString :=
  if name.head? = some '/' then name else (files.pre ++ name).take (filenameMax - 1)

/-- The string at `&tmp_filename[strlen(FPGA_DEVICE_PREFIX)]`. -/
def DeviceFiles.tail (files : DeviceFiles) (filename : CString) : Except CtlFault CString :=
  if files.pre.length ≤ filename.length then .ok (filename.drop files.pre.length)
  else .error .overread

/-- The loop that looks for the name among the devices that are open. -/
def isOpening (files : DeviceFiles) (filename : CString) (s : LibfpgactlState) :
    Except CtlFault Bool :=
  if s.devices.entries = [] then .ok false
  else do
    let tail ← files.tail filename
    return s.devices.entries.any fun dev => dev.name = tail

/-- The version of the driver, which is asked for once. -/
def getVersion (env : DevInitEnv) (s : LibfpgactlState) : Option LibfpgactlState :=
  if s.driverVersion = -1 then env.version.map fun v => { s with driverVersion := v } else some s

/-- `__fpga_dev_init` from the device file on, which is open as `fd`. -/
def devInitOpened (files : DeviceFiles) (filename : CString) (env : DevInitEnv) (fd : ℕ)
    (s : LibfpgactlState) :
    Except CtlFault (Except LibfpgactlErr (Option DevIndex) × LibfpgactlState) :=
  match s.devices.firstFree with
  | none => .ok (.error .fullElement, s.closeFd fd)
  | some index =>
    match getVersion env s, env.minor with
    | none, _ => .ok (.error .failureIoctl, s.errOut index fd)
    | some s, none => .ok (.error .failureIoctl, s.errOut index fd)
    | some s, some minor => do
      let name ← files.tail filename
      if env.name = false then return (.error .failureMemoryAlloc, s.errOut index fd)
      let s := s.setDevice index (some ⟨name, fd, minor, 1⟩)
      if env.update = false then return (.error .failureIoctl, s.errOut index fd)
      return (.ok (some index), { s with devicesNum := s.devicesNum + 1 })

/-- `__fpga_dev_init` from `open` on. -/
def devInitOpen (files : DeviceFiles) (filename : CString) (env : DevInitEnv)
    (s : LibfpgactlState) :
    Except CtlFault (Except LibfpgactlErr (Option DevIndex) × LibfpgactlState) :=
  match env.fd with
  | none => .ok (.error .failureDeviceOpen, s)
  | some fd => devInitOpened files filename env (s.fresh fd) (s.openFd (s.fresh fd))

/-- `__fpga_dev_init`: an error, or 0 and what is written to `*dev_id`. -/
def devInit (files : DeviceFiles) (name : CString) (env : DevInitEnv) (s : LibfpgactlState) :
    Except CtlFault (Except LibfpgactlErr (Option DevIndex) × LibfpgactlState) :=
  if env.filename = false then .ok (.error .failureMemoryAlloc, s)
  else do
    if ← isOpening files (files.filename name) s then return (.ok none, s)
    devInitOpen files (files.filename name) env s

/-- `fpga_dev_init`. -/
def fpgaDevInit (files : DeviceFiles) (name : Option CString) (devId : Bool) (env : DevInitEnv)
    (s : LibfpgactlState) :
    Except CtlFault (Except LibfpgactlErr (Option DevIndex) × LibfpgactlState) :=
  match name, devId with
  | some name, true => devInit files name env s
  | _, _ => .ok (.error .invalidArgument, s)

/-- `fpga_dev_simple_init`. -/
def fpgaDevSimpleInit (files : DeviceFiles) (name : Option CString) (env : DevInitEnv)
    (s : LibfpgactlState) :
    Except CtlFault (Except LibfpgactlErr (Option DevIndex) × LibfpgactlState) :=
  match name with
  | some name => devInit files name env s
  | none => .ok (.error .invalidArgument, s)

/-! ### Closing a device -/

/-- `fpga_get_device`. -/
def fpgaGetDevice (s : LibfpgactlState) (devId : BitVec 32) : Option (DevIndex × FpgaDeviceEntry) :=
  if h : devId.toNat < fpgaMaxDevices then
    (s.devices ⟨devId.toNat, h⟩).map fun dev => (⟨devId.toNat, h⟩, dev)
  else none

/-- `fpga_dev_finish`, after the device is found. -/
def devFinish (s : LibfpgactlState) (index : DevIndex) (dev : FpgaDeviceEntry) :
    LibfpgactlState :=
  let s := (s.closeFd dev.fd).setDevice index none
  { s with devicesNum := s.devicesNum - 1 }

/-- `fpga_dev_finish`. -/
def fpgaDevFinish (devId : BitVec 32) (s : LibfpgactlState) :
    Except LibfpgactlErr Unit × LibfpgactlState :=
  match fpgaGetDevice s devId with
  | none => (.error .invalidArgument, s)
  | some (index, dev) => (.ok (), devFinish s index dev)

/-- `fpga_finish`. -/
def fpgaFinish (s : LibfpgactlState) : Except LibfpgactlErr Unit × LibfpgactlState :=
  if s.devicesNum = 0 then (.error .notInitialized, s)
  else
    (.ok (), (List.finRange fpgaMaxDevices).foldl (fun s index =>
      match s.devices index with
      | some _ => (fpgaDevFinish (BitVec.ofNat 32 index) s).2
      | none => s) s)

/-! ### Command line arguments -/

/-- What `getopt_long` finds. -/
inductive GetoptEvent where
  /-- `-d` or `--device`; whether there is memory for `optarg`, and for each of its names. -/
  | device (optarg : CString) (string : Bool) (names : ℕ → Bool)
  /-- Something else. -/
  | other

/-- The names in an argument of `-d` for which there is memory. -/
def devnames (optarg : CString) (names : ℕ → Bool) : List CString :=
  (((optarg.splitOn ',').filter (· ≠ [])).zipIdx.filter fun name => names name.2).map Prod.fst

/-- `device_name[devices_num++] = name` for each of `names`. -/
def pushNames (s : LibfpgactlState) (deviceName : List CString) :
    List CString → Except CtlFault (LibfpgactlState × List CString)
  | [] => .ok (s, deviceName)
  | name :: names =>
    if 0 ≤ s.devicesNum ∧ s.devicesNum < fpgaMaxDevices then
      pushNames { s with devicesNum := s.devicesNum + 1 } (deviceName ++ [name]) names
    else .error .overrun

/-- `__parse_args`: whether the arguments could be parsed, and the names. -/
def parseArgs (s : LibfpgactlState) (deviceName : List CString) :
    List GetoptEvent → Except CtlFault (Bool × LibfpgactlState × List CString)
  | [] => .ok (true, s, deviceName)
  | .device optarg string names :: events =>
    if string = false then .ok (false, s, deviceName)
    else do
      let (s, deviceName) ← pushNames s deviceName (devnames optarg names)
      parseArgs s deviceName events
  | .other :: _ => .ok (false, s, deviceName)

/-- What `fpga_init` finds outside. -/
structure FpgaInitEnv where
  /-- There is memory for `device_name`. -/
  deviceName : Bool
  /-- The options. -/
  options : List GetoptEvent
  /-- `optind` behind the last of them. -/
  optind : ℕ
  /-- What each `fpga_dev_simple_init` finds. -/
  inits : ℕ → DevInitEnv

/-- One round of the loop of `fpga_init`. -/
def initName (files : DeviceFiles) (s : LibfpgactlState) (name : CString × DevInitEnv) :
    Except CtlFault LibfpgactlState := do
  let (_, s) ← fpgaDevSimpleInit files (some name.1) name.2 s
  return s

/-- `fpga_init`; the value is the number of options. -/
def fpgaInit (files : DeviceFiles) (env : FpgaInitEnv) (s : LibfpgactlState) :
    Except CtlFault (Except LibfpgactlErr ℕ × LibfpgactlState) :=
  if s.devicesNum > 0 then .ok (.error .alreadyInitialized, s)
  else if env.deviceName = false then .ok (.error .failureMemoryAlloc, s)
  else do
    let (parsed, s, deviceName) ← parseArgs s [] env.options
    if parsed = false then return (.error .invalidArgument, s)
    -- `devices_num` is the number of names up to here, and that of the devices from here on
    let s ← (deviceName.zipIdx.map fun name => (name.1, env.inits name.2)).foldlM (initName files)
      { s with devicesNum := 0 }
    if s.devicesNum = 0 then return (.error .noDevices, s)
    return (.ok (env.optind - 1), s)

/-! ### Scanning -/

/-- `__fpga_get_dev_id`. -/
def getDevId (files : DeviceFiles) (name : CString) (s : LibfpgactlState) : Option DevIndex :=
  let name :=
    if name.head? = some '/' then
      if name.length ≤ files.pre.length then none else some (name.drop files.pre.length)
    else some name
  (List.finRange fpgaMaxDevices).find? fun index =>
    (s.devices index).any fun dev => name = some dev.name

/-- What `fpga_scan_devices` finds outside. -/
structure ScanEnv where
  /-- What `opendir` gives. -/
  dir : Option ℕ
  /-- The files of the directory, and what `__fpga_dev_init` finds if it is called for one. -/
  listing : List (CString × DevInitEnv)
  /-- The files have different names. -/
  nodup : (listing.map Prod.fst).Nodup
  /-- A name is not a path. -/
  noSlash : ∀ file ∈ listing, '/' ∉ file.1
  /-- A name has at most `NAME_MAX` characters. -/
  short : ∀ file ∈ listing, file.1.length ≤ 255

/-- One round of the loop of `fpga_scan_devices`; the number is `scan_devices`. What
`fpga_update_info` does to an open device has no influence on the table. -/
def scanFile (files : DeviceFiles) (s : LibfpgactlState × ℕ) (file : CString × DevInitEnv) :
    Except CtlFault (LibfpgactlState × ℕ) :=
  if files.file.isPrefixOf file.1 then
    let name := file.1.drop files.file.length
    match getDevId files name s.1 with
    | some _ => .ok (s.1, s.2 + 1)
    | none => do
      match ← devInit files name file.2 s.1 with
      | (.error _, t) => return (t, s.2)
      | (.ok _, t) => return (t, s.2 + 1)
  else .ok s

/-- `fpga_scan_devices`. -/
def fpgaScanDevices (files : DeviceFiles) (env : ScanEnv) (s : LibfpgactlState) :
    Except CtlFault (Except LibfpgactlErr ℕ × LibfpgactlState) :=
  match env.dir with
  | none => .ok (.error .failureOpen, s)
  | some fd => do
    let (t, scanDevices) ←
      env.listing.foldlM (scanFile files) ({ s with dir := some (s.fresh fd) }, 0)
    let t : LibfpgactlState := { t with dir := none }
    if t.devicesNum ≠ scanDevices then return (.error .fatalError, t)
    return (.ok scanDevices, t)

/-! ### Calls -/

/-- A call, with what it finds outside. -/
inductive CtlCall where
  /-- `fpga_init`. -/
  | init (env : FpgaInitEnv)
  /-- `fpga_dev_init`; whether `dev_id` is not `NULL`. -/
  | devInit (name : Option CString) (devId : Bool) (env : DevInitEnv)
  /-- `fpga_dev_simple_init`. -/
  | devSimpleInit (name : Option CString) (env : DevInitEnv)
  /-- `fpga_scan_devices`. -/
  | scanDevices (env : ScanEnv)
  /-- `fpga_dev_finish`. -/
  | devFinish (devId : BitVec 32)
  /-- `fpga_finish`. -/
  | finish

/-- A call: the value that it returns, or an error, and the state. -/
def CtlCall.exec (files : DeviceFiles) (s : LibfpgactlState) :
    CtlCall → Except CtlFault (Except LibfpgactlErr ℕ × LibfpgactlState)
  | .init env => fpgaInit files env s
  | .devInit name devId env =>
    (fpgaDevInit files name devId env s).map fun r => (r.1.map fun _ => 0, r.2)
  | .devSimpleInit name env =>
    (fpgaDevSimpleInit files name env s).map fun r => (r.1.map fun _ => 0, r.2)
  | .scanDevices env => fpgaScanDevices files env s
  | .devFinish devId => .ok ((fpgaDevFinish devId s).1.map fun _ => 0, (fpgaDevFinish devId s).2)
  | .finish => .ok ((fpgaFinish s).1.map fun _ => 0, (fpgaFinish s).2)

end HardwareDrivers.Libfpga
