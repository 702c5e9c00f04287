/-! The field names of the processor record. -/
namespace HostInventory.Cpu.Key

def vendor := "vendor_id"

def modelName := "model_name"

def family := "family"

def model := "model"

def stepping := "stepping"

def megahertz := "mhz"

def cores := "cpu_cores"

def logicalProcessors := "cpu_logical_processors"

def packages := "cpu_pkgs"

def numaNodes := "cpu_numa_nodes"

def cacheSize := "cache_size"

def cacheSizeL1 := "cache_size_l1"

def cacheSizeL2 := "cache_size_l2"

def cacheSizeL3 := "cache_size_l3"

end HostInventory.Cpu.Key
