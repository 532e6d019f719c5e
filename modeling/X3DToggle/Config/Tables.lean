import X3DToggle.Config.Struct

/-!
# The key tables

Three chains of `strcmp` decide what a key means: one in `config_load`, one in the handler of
`SET_CONFIG` and one in `config_get`. Each is a table here, with its entries in the order of
the source, and a chain runs the first entry whose key matches. A fourth table holds the
assignments `config_load` makes before it opens the file; their values come from `config.h`,
which `config.sh` generates, and are the parameters `Build`.

The tables agree where they overlap (`setConfigTable_loads`, `configLoadTable_unique`); where
they do not overlap, or differ in a length, the sections on reloading and on reading back say
what follows.
-/

namespace X3D

/-- The constants of the generated `config.h` and `ccd.h`. -/
structure Build where
  pollingInterval : ℤ
  refreshInterval : Double
  devEnable : ℤ
  affinityLevel : ℤ
  affinityMask : Bytes
  affinityFreqMask : Bytes
  loadThreshold : Double
  /-- `TOSTRING(CONFIG_LOAD_THRESHOLD)`. -/
  loadThresholdText : Bytes
  detectionLevel : ℤ
  ebpfEnable : ℤ
  debugEnable : ℤ
  fallbackProfile : Bytes
  serverEnabled : ℤ
  serverAddress : Bytes
  serverPort : ℤ
  serverSsh : Bytes
  /-- `CCD0_CORE_MASK`, from the generated `ccd.h`. -/
  ccd0CoreMask : Bytes
  /-- `CCD1_START`. -/
  ccd1Start : ℕ
  /-- `TOTAL_CORES`. -/
  totalCores : ℕ

/-- The constants that come out of the shipped `settings.conf` and `networking.conf`, on a
machine with sixteen logical cores. -/
def shippedBuild : Build where
  pollingInterval := 3
  refreshInterval := .fin (1 / 2)
  devEnable := 0
  affinityLevel := 0
  affinityMask := lit "none"
  affinityFreqMask := lit "none"
  loadThreshold := .fin 50
  loadThresholdText := lit "50"
  detectionLevel := 2
  ebpfEnable := 1
  debugEnable := 0
  fallbackProfile := lit "default"
  serverEnabled := 0
  serverAddress := lit "127.0.0.1"
  serverPort := 9370
  serverSsh := lit "local"
  ccd0CoreMask := lit "0-7"
  ccd1Start := 8
  totalCores := 16

/-- The assignments of `config_load` before it reads the file. -/
def configDefaults (B : Build) : List Store :=
  [.int .pollingInterval B.pollingInterval,
   .dbl .refreshInterval B.refreshInterval,
   .int .devEnable B.devEnable,
   .int .affinityLevel B.affinityLevel,
   .str .affinityMask 63 B.affinityMask (by decide),
   .str .affinityFreqMask 63 B.affinityFreqMask (by decide),
   .dbl .loadThreshold B.loadThreshold,
   .int .detectionLevel B.detectionLevel,
   .int .ebpfEnable B.ebpfEnable,
   .int .debugEnable B.debugEnable,
   .str .daemonState 31 (lit "default") (by decide),
   .str .fallbackProfile 63 B.fallbackProfile (by decide),
   .int .serverEnabled B.serverEnabled,
   .str .serverAddress 127 B.serverAddress (by decide),
   .int .serverPort B.serverPort,
   .str .serverSsh 31 B.serverSsh (by decide),
   .str .lintClangDiagnostic 15 (lit "enabled") (by decide),
   .str .lintClangBugprone 15 (lit "enabled") (by decide),
   .str .lintClangModernize 15 (lit "enabled") (by decide),
   .str .lintClangReadability 15 (lit "enabled") (by decide),
   .str .lintClangPerformance 15 (lit "enabled") (by decide),
   .str .lintClangPortability 15 (lit "enabled") (by decide),
   .str .lintClangAnalyzer 15 (lit "enabled") (by decide),
   .str .lintCppcheckAll 15 (lit "enabled") (by decide),
   .str .lintCppcheckWarning 15 (lit "enabled") (by decide),
   .str .lintCppcheckStyle 15 (lit "enabled") (by decide),
   .str .lintCppcheckPerformance 15 (lit "enabled") (by decide),
   .str .lintCppcheckPortability 15 (lit "enabled") (by decide),
   .str .lintCppcheckInformation 15 (lit "disabled") (by decide),
   .str .lintCppcheckUnused 15 (lit "enabled") (by decide),
   .str .lintValgrindMode 15 (lit "full") (by decide),
   .str .lintValgrindKinds 31 (lit "all") (by decide),
   .str .lintValgrindOrigins 15 (lit "enabled") (by decide)]

/-- The chain of `config_load`. -/
def configLoadTable : List (Bytes × Setter) :=
  [(lit "POLLING_INTERVAL", .atoi .pollingInterval),
   (lit "REFRESH_INTERVAL", .atof .refreshInterval),
   (lit "DEV_ENABLE", .atoi .devEnable),
   (lit "LOAD_THRESHOLD", .atof .loadThreshold),
   (lit "DETECTION_LEVEL", .atoi .detectionLevel),
   (lit "EBPF_ENABLE", .atoi .ebpfEnable),
   (lit "DEBUG_ENABLE", .atoi .debugEnable),
   (lit "DAEMON_STATE", .copy .daemonState 31 (by decide)),
   (lit "FALLBACK_PROFILE", .copy .fallbackProfile 63 (by decide)),
   (lit "SERVER_ENABLED", .flag .serverEnabled),
   (lit "SERVER_ADDRESS", .copy .serverAddress 127 (by decide)),
   (lit "SERVER_PORT", .atoi .serverPort),
   (lit "SERVER_SSH", .copy .serverSsh 31 (by decide)),
   (lit "AFFINITY_MASK", .copy .affinityMask 63 (by decide)),
   (lit "AFFINITY_FREQ_MASK", .copy .affinityFreqMask 63 (by decide)),
   (lit "SCHED_BORE", .atoi .schedBore),
   (lit "SCHED_BIT_SHIFT", .atoi .schedBitShift),
   (lit "SCHED_BURST_FORK", .atoi .schedBurstFork),
   (lit "SCHED_SLICE_US", .atoi .schedSliceUs),
   (lit "VM_MAX_MAP", .atoi .vmMaxMap),
   (lit "SPLIT_LOCK_DETECT", .atoi .splitLockDetect),
   (lit "NMI_WATCHDOG", .atoi .nmiWatchdog),
   (lit "THP_MODE", .copy .thpMode 15 (by decide)),
   (lit "NET_QDISC", .copy .netQdisc 31 (by decide)),
   (lit "NET_FASTOPEN", .atoi .netFastopen),
   (lit "NET_RP_FILTER", .atoi .netRpFilter),
   (lit "NET_SOURCE_ROUTE", .atoi .netSourceRoute),
   (lit "IRQ_ENABLE", .atoi .irqEnable),
   (lit "IRQ_GPU", .atoi .irqGpu),
   (lit "IRQ_NVME", .atoi .irqNvme),
   (lit "IRQ_USB", .atoi .irqUsb),
   (lit "IRQ_NIC", .atoi .irqNic),
   (lit "IRQ_AUDIO", .atoi .irqAudio),
   (lit "IRQ_COALESCE", .atoi .irqCoalesce),
   (lit "IRQ_WATCH", .atoi .irqWatch),
   (lit "ADVANCED_CONFIG_ENABLE", .atoi .advancedConfigEnable),
   (lit "FORCE_UNSUPPORTED_DISPLAY", .atoi .forceUnsupportedDisplay),
   (lit "LINT_CLANG_DIAGNOSTIC", .copy .lintClangDiagnostic 15 (by decide)),
   (lit "LINT_CLANG_BUGPRONE", .copy .lintClangBugprone 15 (by decide)),
   (lit "LINT_CLANG_MODERNIZE", .copy .lintClangModernize 15 (by decide)),
   (lit "LINT_CLANG_READABILITY", .copy .lintClangReadability 15 (by decide)),
   (lit "LINT_CLANG_PERFORMANCE", .copy .lintClangPerformance 15 (by decide)),
   (lit "LINT_CLANG_PORTABILITY", .copy .lintClangPortability 15 (by decide)),
   (lit "LINT_CLANG_ANALYZER", .copy .lintClangAnalyzer 15 (by decide)),
   (lit "LINT_CPPCHECK_ALL", .copy .lintCppcheckAll 15 (by decide)),
   (lit "LINT_CPPCHECK_WARNING", .copy .lintCppcheckWarning 15 (by decide)),
   (lit "LINT_CPPCHECK_STYLE", .copy .lintCppcheckStyle 15 (by decide)),
   (lit "LINT_CPPCHECK_PERFORMANCE", .copy .lintCppcheckPerformance 15 (by decide)),
   (lit "LINT_CPPCHECK_PORTABILITY", .copy .lintCppcheckPortability 15 (by decide)),
   (lit "LINT_CPPCHECK_INFORMATION", .copy .lintCppcheckInformation 15 (by decide)),
   (lit "LINT_CPPCHECK_UNUSED", .copy .lintCppcheckUnused 15 (by decide)),
   (lit "LINT_VALGRIND_MODE", .copy .lintValgrindMode 15 (by decide)),
   (lit "LINT_VALGRIND_KINDS", .copy .lintValgrindKinds 31 (by decide)),
   (lit "LINT_VALGRIND_ORIGINS", .copy .lintValgrindOrigins 15 (by decide)),
   (lit "JOURNAL_KEEP", .atoi .journalKeep),
   (lit "JOURNAL_MAX_MB", .atoi .journalMaxMb)]

/-- The chain of `SET_CONFIG`. -/
def setConfigTable : List (Bytes × Setter) :=
  [(lit "DETECTION_LEVEL", .atoi .detectionLevel),
   (lit "POLLING_INTERVAL", .atoi .pollingInterval),
   (lit "LOAD_THRESHOLD", .atof .loadThreshold),
   (lit "SERVER_ADDRESS", .copy .serverAddress (StrField.size .serverAddress) (by decide)),
   (lit "EBPF_ENABLE", .atoi .ebpfEnable),
   (lit "AFFINITY_MASK", .copy .affinityMask (StrField.size .affinityMask) (by decide)),
   (lit "AFFINITY_FREQ_MASK",
      .copy .affinityFreqMask (StrField.size .affinityFreqMask) (by decide)),
   (lit "DEV_ENABLE", .atoi .devEnable),
   (lit "DEBUG_ENABLE", .atoi .debugEnable),
   (lit "AFFINITY_LEVEL", .atoi .affinityLevel),
   (lit "REFRESH_INTERVAL", .atof .refreshInterval),
   (lit "FALLBACK_PROFILE", .copy .fallbackProfile (StrField.size .fallbackProfile) (by decide)),
   (lit "SCHED_BORE", .atoi .schedBore),
   (lit "SCHED_BIT_SHIFT", .atoi .schedBitShift),
   (lit "SCHED_BURST_FORK", .atoi .schedBurstFork),
   (lit "SCHED_SLICE_US", .atoi .schedSliceUs),
   (lit "VM_MAX_MAP", .atoi .vmMaxMap),
   (lit "SPLIT_LOCK_DETECT", .atoi .splitLockDetect),
   (lit "NMI_WATCHDOG", .atoi .nmiWatchdog),
   (lit "THP_MODE", .copy .thpMode (StrField.size .thpMode) (by decide)),
   (lit "NET_QDISC", .copy .netQdisc (StrField.size .netQdisc) (by decide)),
   (lit "NET_FASTOPEN", .atoi .netFastopen),
   (lit "NET_RP_FILTER", .atoi .netRpFilter),
   (lit "NET_SOURCE_ROUTE", .atoi .netSourceRoute),
   (lit "IRQ_ENABLE", .atoi .irqEnable),
   (lit "IRQ_GPU", .atoi .irqGpu),
   (lit "IRQ_NVME", .atoi .irqNvme),
   (lit "IRQ_USB", .atoi .irqUsb),
   (lit "IRQ_NIC", .atoi .irqNic),
   (lit "IRQ_AUDIO", .atoi .irqAudio),
   (lit "IRQ_COALESCE", .atoi .irqCoalesce),
   (lit "IRQ_WATCH", .atoi .irqWatch),
   (lit "ADVANCED_CONFIG_ENABLE", .atoi .advancedConfigEnable),
   (lit "FORCE_UNSUPPORTED_DISPLAY", .atoi .forceUnsupportedDisplay)]

/-- How an entry of `config_get` renders its field. -/
inductive Getter where
  /-- `printf_sn(val, sizeof(val), "%d", cfg.f)`. -/
  | int (f : IntField)
  /-- `printf_sn(val, sizeof(val), "%d", (int)cfg.f)`. -/
  | cast (f : DblField)
  /-- `return cfg.f`. -/
  | str (f : StrField)
  /-- `printf_sn(val, sizeof(val), "%.2f", cfg.f)`. -/
  | dot2f (f : DblField)

/-- The chain of `config_get`. -/
def configGetTable : List (Bytes × Getter) :=
  [(lit "POLLING_INTERVAL", .int .pollingInterval),
   (lit "LOAD_THRESHOLD", .cast .loadThreshold),
   (lit "DETECTION_LEVEL", .int .detectionLevel),
   (lit "EBPF_ENABLE", .int .ebpfEnable),
   (lit "DEBUG_ENABLE", .int .debugEnable),
   (lit "DEV_ENABLE", .int .devEnable),
   (lit "DAEMON_STATE", .str .daemonState),
   (lit "FALLBACK_PROFILE", .str .fallbackProfile),
   (lit "SERVER_ENABLED", .int .serverEnabled),
   (lit "SERVER_ADDRESS", .str .serverAddress),
   (lit "SERVER_PORT", .int .serverPort),
   (lit "SERVER_SSH", .str .serverSsh),
   (lit "AFFINITY_MASK", .str .affinityMask),
   (lit "AFFINITY_FREQ_MASK", .str .affinityFreqMask),
   (lit "AFFINITY_LEVEL", .int .affinityLevel),
   (lit "SCHED_BORE", .int .schedBore),
   (lit "SCHED_BIT_SHIFT", .int .schedBitShift),
   (lit "SCHED_BURST_FORK", .int .schedBurstFork),
   (lit "SCHED_SLICE_US", .int .schedSliceUs),
   (lit "VM_MAX_MAP", .int .vmMaxMap),
   (lit "SPLIT_LOCK_DETECT", .int .splitLockDetect),
   (lit "NMI_WATCHDOG", .int .nmiWatchdog),
   (lit "THP_MODE", .str .thpMode),
   (lit "NET_QDISC", .str .netQdisc),
   (lit "NET_FASTOPEN", .int .netFastopen),
   (lit "NET_RP_FILTER", .int .netRpFilter),
   (lit "NET_SOURCE_ROUTE", .int .netSourceRoute),
   (lit "IRQ_ENABLE", .int .irqEnable),
   (lit "IRQ_GPU", .int .irqGpu),
   (lit "IRQ_NVME", .int .irqNvme),
   (lit "IRQ_USB", .int .irqUsb),
   (lit "IRQ_NIC", .int .irqNic),
   (lit "IRQ_AUDIO", .int .irqAudio),
   (lit "IRQ_COALESCE", .int .irqCoalesce),
   (lit "IRQ_WATCH", .int .irqWatch),
   (lit "ADVANCED_CONFIG_ENABLE", .int .advancedConfigEnable),
   (lit "FORCE_UNSUPPORTED_DISPLAY", .int .forceUnsupportedDisplay),
   (lit "LINT_CLANG_DIAGNOSTIC", .str .lintClangDiagnostic),
   (lit "LINT_CLANG_BUGPRONE", .str .lintClangBugprone),
   (lit "LINT_CLANG_MODERNIZE", .str .lintClangModernize),
   (lit "LINT_CLANG_READABILITY", .str .lintClangReadability),
   (lit "LINT_CLANG_PERFORMANCE", .str .lintClangPerformance),
   (lit "LINT_CLANG_PORTABILITY", .str .lintClangPortability),
   (lit "LINT_CLANG_ANALYZER", .str .lintClangAnalyzer),
   (lit "LINT_CPPCHECK_ALL", .str .lintCppcheckAll),
   (lit "LINT_CPPCHECK_WARNING", .str .lintCppcheckWarning),
   (lit "LINT_CPPCHECK_STYLE", .str .lintCppcheckStyle),
   (lit "LINT_CPPCHECK_PERFORMANCE", .str .lintCppcheckPerformance),
   (lit "LINT_CPPCHECK_PORTABILITY", .str .lintCppcheckPortability),
   (lit "LINT_CPPCHECK_INFORMATION", .str .lintCppcheckInformation),
   (lit "LINT_CPPCHECK_UNUSED", .str .lintCppcheckUnused),
   (lit "LINT_VALGRIND_MODE", .str .lintValgrindMode),
   (lit "LINT_VALGRIND_KINDS", .str .lintValgrindKinds),
   (lit "LINT_VALGRIND_ORIGINS", .str .lintValgrindOrigins),
   (lit "JOURNAL_KEEP", .int .journalKeep),
   (lit "JOURNAL_MAX_MB", .int .journalMaxMb),
   (lit "REFRESH_INTERVAL", .dot2f .refreshInterval)]

/-! ### Where the tables agree -/

/-- The keys of `config_load` are proper: not empty, not a comment, free of the separator. -/
theorem configLoadTable_keys : ∀ e ∈ configLoadTable,
    e.1 ≠ [] ∧ e.1.head? ≠ some (chr '#') ∧ chr '=' ∉ e.1 ∧ nl ∉ e.1 ∧ (0 : UInt8) ∉ e.1 := by
  decide

/-- No two keys of `config_load` write the same field. -/
theorem configLoadTable_unique : ∀ e ∈ configLoadTable, ∀ e' ∈ configLoadTable,
    e.2.field = e'.2.field → e.1 = e'.1 := by
  decide

/-- The keys of `SET_CONFIG` are proper, too. -/
theorem setConfigTable_keys : ∀ e ∈ setConfigTable,
    e.1 ≠ [] ∧ e.1.head? ≠ some (chr '#') ∧ chr '=' ∉ e.1 ∧ nl ∉ e.1 ∧ chr ' ' ∉ e.1 := by
  decide

/-- **Where `SET_CONFIG` and `config_load` meet.** Every key `SET_CONFIG` stores is loaded into
the same field, except `AFFINITY_LEVEL`, which `config_load` does not know. -/
theorem setConfigTable_loads : ∀ e ∈ setConfigTable,
    (configLoadTable.lookup e.1).map Setter.field =
      if e.1 = lit "AFFINITY_LEVEL" then none else some e.2.field := by
  decide

end X3D
